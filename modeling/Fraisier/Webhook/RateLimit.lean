import Mathlib.Algebra.Order.Ring.Rat
import Mathlib.Data.Finset.Card
import Mathlib.Data.Finset.Dedup
import Mathlib.Data.List.ProdSigma
import Fraisier.Lib.Lookup
import Fraisier.Lib.SlidingWindow
import Fraisier.Lib.Text

/-!
# The rate limit of the webhook

`webhook_rate_limit.py` keeps for each address the times of its accepted requests in the last minute,
and forgets the address that came least recently when it tracks too many. As long as it forgets none,
the table holds for each address what a limiter for this address alone holds
(`Lib/SlidingWindow.lean`, `run_follows`). It makes room before a new address is added: one address
more than `_MAX_TRACKED_IPS` is tracked then (`tracked_le`), so the limiter keeps the
limit and the bound (`Exact`) just when there are no more addresses than that (`rateLimitExact_iff`).
-/

namespace Fraisier.Webhook.RateLimit

open Fraisier.Lib

/-! ## The limiter -/

/-- `_MAX_TRACKED_IPS`. -/
def maxTrackedIps : ℕ := 256

/-- A request, with the time at which it comes. -/
structure Request where
  clientIp : Str
  now : ℚ
  deriving DecidableEq

/-- `_request_times`. -/
abbrev RequestTimes := List (Str × List ℚ)

/-- The loop that makes room. -/
def evict : RequestTimes → RequestTimes
  | [] => []
  | entry :: table => if maxTrackedIps < (entry :: table).length then evict table else entry :: table

/-- `check_rate_limit`, with the limit that is in force. -/
def checkRateLimit (rateLimit : ℕ) (r : Request) (table : RequestTimes) : Bool × RequestTimes :=
  let table := evict table
  let window := ((table.lookup r.clientIp).getD []).filter (r.now - · < 60)
  let others := table.filter (·.1 ≠ r.clientIp)
  if rateLimit ≤ window.length then (false, others ++ [(r.clientIp, window)])
  else (true, others ++ [(r.clientIp, window ++ [r.now])])

/-- The requests with their answers, and the table. -/
structure Run where
  log : List (Request × Bool) := []
  table : RequestTimes := []

def Run.step (rateLimit : ℕ) (s : Run) (r : Request) : Run where
  log := s.log ++ [(r, (checkRateLimit rateLimit r s.table).1)]
  table := (checkRateLimit rateLimit r s.table).2

/-- One request after another. -/
def run (rateLimit : ℕ) (rs : List Request) : Run := rs.foldl (Run.step rateLimit) {}

/-! ## The limit and the bound on what is tracked -/

/-- The times of the accepted requests of an address. -/
def accepted (clientIp : Str) (log : List (Request × Bool)) : List ℚ :=
  (log.filter fun e => e.1.clientIp = clientIp ∧ e.2 = true).map (·.1.now)

/-- The addresses that requests come from. -/
def addresses (rs : List Request) : Finset Str := (rs.map Request.clientIp).toFinset

/-- Of requests from no more addresses than are tracked, at times that do not decrease, no window has
more accepted ones of an address than the limit, and one is refused only after a window that has as
many. Of any requests, no more addresses are tracked. -/
structure Exact (rateLimit : ℕ) (rs : List Request) : Prop where
  atMost : rs.Pairwise (·.now ≤ ·.now) → (addresses rs).card ≤ maxTrackedIps → ∀ clientIp t,
    ((accepted clientIp (run rateLimit rs).log).filter fun a => t ≤ a ∧ a < t + 60).length ≤ rateLimit
  onlyFull : rs.Pairwise (·.now ≤ ·.now) → (addresses rs).card ≤ maxTrackedIps → ∀ before r after,
    (run rateLimit rs).log = before ++ (r, false) :: after →
      rateLimit ≤
        ((accepted r.clientIp before).filter fun a => r.now - 60 < a ∧ a ≤ r.now).length
  bounded : ∀ before, before <+: rs → (run rateLimit before).table.length ≤ maxTrackedIps

/-! ## The table -/

section Table

variable {rateLimit : ℕ} {rs : List Request} {r : Request} {table : RequestTimes} {ip : Str}

/-- A table that is small enough is kept. -/
theorem evict_of_le (h : table.length ≤ maxTrackedIps) : evict table = table := by
  cases table with
  | nil => rfl
  | cons entry table =>
    unfold evict
    rw [if_neg (by omega)]

/-- What is kept of a table is small enough, and in its order. -/
theorem evict_le (table : RequestTimes) :
    (evict table).length ≤ maxTrackedIps ∧ (evict table).Sublist table := by
  induction table with
  | nil => exact ⟨Nat.zero_le _, List.Sublist.refl _⟩
  | cons entry table ih =>
    unfold evict
    split_ifs with h
    · exact ⟨ih.1, ih.2.trans (List.sublist_cons_self entry table)⟩
    · exact ⟨by omega, List.Sublist.refl _⟩

/-- What is kept for the address of a request goes to the end of the table. -/
theorem checkRateLimit_table (rateLimit : ℕ) (r : Request) (table : RequestTimes) :
    ∃ times, (checkRateLimit rateLimit r table).2 =
      (evict table).filter (·.1 ≠ r.clientIp) ++ [(r.clientIp, times)] := by
  unfold checkRateLimit
  dsimp only
  split_ifs
  · exact ⟨_, rfl⟩
  · exact ⟨_, rfl⟩

/-- One more request is handled after the others. -/
theorem run_snoc (rs : List Request) (r : Request) :
    run rateLimit (rs ++ [r]) = (run rateLimit rs).step rateLimit r := by
  simp [run]

/-- Each address is tracked once, and at most one more than there should be. -/
theorem tracked_le (rateLimit : ℕ) (rs : List Request) :
    ((run rateLimit rs).table.map (·.1)).Nodup ∧
      (run rateLimit rs).table.length ≤ maxTrackedIps + 1 := by
  -- Induction on the requests: the table is pruned before one address is added.
  induction rs using List.reverseRecOn with
  | nil => exact ⟨List.nodup_nil, Nat.zero_le _⟩
  | append_singleton rs r ih =>
    obtain ⟨times, htable⟩ := checkRateLimit_table rateLimit r (run rateLimit rs).table
    obtain ⟨hlength, hsub⟩ := evict_le (run rateLimit rs).table
    have hothers := List.length_filter_le (·.1 ≠ r.clientIp) (evict (run rateLimit rs).table)
    have hnodup : (((evict (run rateLimit rs).table).filter (·.1 ≠ r.clientIp)).map (·.1)).Nodup :=
      ih.1.sublist ((List.filter_sublist.trans hsub).map _)
    rw [run_snoc]
    show ((checkRateLimit rateLimit r (run rateLimit rs).table).2.map _).Nodup ∧
      (checkRateLimit rateLimit r (run rateLimit rs).table).2.length ≤ _
    rw [htable, List.map_append, List.length_append]
    constructor
    · exact List.nodup_append.mpr ⟨hnodup, List.nodup_singleton _, by simp⟩
    · simp only [List.length_singleton]
      omega

/-- One more request adds its address. -/
theorem addresses_snoc : addresses (rs ++ [r]) = insert r.clientIp (addresses rs) := by
  ext ip
  simp [addresses]

/-- One more request leaves no fewer addresses. -/
theorem card_addresses_le : (addresses rs).card ≤ (addresses (rs ++ [r])).card := by
  rw [addresses_snoc]
  exact Finset.card_le_card (Finset.subset_insert _ _)

/-- The addresses that are tracked. -/
def tracked (table : RequestTimes) : Finset Str := (table.map (·.1)).toFinset

/-- Each address is tracked once. -/
theorem card_tracked (rateLimit : ℕ) (rs : List Request) :
    (tracked (run rateLimit rs).table).card = (run rateLimit rs).table.length := by
  rw [tracked, List.toFinset_card_of_nodup (tracked_le rateLimit rs).1, List.length_map]

/-- As long as there is room, an address is added and none is forgotten. -/
theorem tracked_snoc (h : (run rateLimit rs).table.length ≤ maxTrackedIps) :
    tracked (run rateLimit (rs ++ [r])).table =
      insert r.clientIp (tracked (run rateLimit rs).table) := by
  obtain ⟨times, htable⟩ := checkRateLimit_table rateLimit r (run rateLimit rs).table
  rw [run_snoc, tracked, Run.step, htable, evict_of_le h]
  ext ip
  by_cases hip : ip = r.clientIp
  · simp [hip]
  · simp [tracked, hip]

/-- From no more addresses than can be tracked, all are. -/
theorem tracked_eq (h : (addresses rs).card ≤ maxTrackedIps) :
    tracked (run rateLimit rs).table = addresses rs := by
  induction rs using List.reverseRecOn with
  | nil => rfl
  | append_singleton rs r ih =>
    have hbefore := ih (card_addresses_le.trans h)
    have hroom : (run rateLimit rs).table.length ≤ maxTrackedIps := by
      rw [← card_tracked, hbefore]
      exact card_addresses_le.trans h
    rw [tracked_snoc hroom, hbefore, addresses_snoc]

/-- From more addresses, there is a time at which too many are. -/
theorem exists_overfull (h : maxTrackedIps < (addresses rs).card) :
    ∃ before, before <+: rs ∧ maxTrackedIps < (run rateLimit before).table.length := by
  induction rs using List.reverseRecOn with
  | nil => exact absurd h (by simp [addresses])
  | append_singleton rs r ih =>
    by_cases hbefore : (addresses rs).card ≤ maxTrackedIps
    · have hroom : (run rateLimit rs).table.length ≤ maxTrackedIps := by
        rw [← card_tracked, tracked_eq hbefore]
        exact hbefore
      refine ⟨rs ++ [r], List.prefix_rfl, ?_⟩
      rw [← card_tracked, tracked_snoc hroom, tracked_eq hbefore, ← addresses_snoc]
      exact h
    · obtain ⟨before, hprefix, hover⟩ := ih (by omega)
      exact ⟨before, hprefix.trans (List.prefix_append rs [r]), hover⟩

end Table

/-! ## One address -/

section Follows

variable {rateLimit : ℕ} {rs : List Request} {ip : Str}

/-- The log of an address. -/
def logOf (ip : Str) (log : List (Request × Bool)) : List (ℚ × Bool) :=
  (log.filter (·.1.clientIp = ip)).map fun e => (e.1.now, e.2)

/-- The times at which an address sends requests. -/
def timesOf (ip : Str) (rs : List Request) : List ℚ :=
  (rs.filter (·.clientIp = ip)).map Request.now

/-- What an address had accepted is read off its part of the log. -/
theorem accepted_logOf (ip : Str) (log : List (Request × Bool)) :
    SlidingWindow.accepted (logOf ip log) = accepted ip log := by
  unfold SlidingWindow.accepted logOf accepted
  rw [List.filter_map, List.map_map, List.filter_filter]
  simp only [Function.comp_def, Bool.decide_and, Bool.decide_eq_true, Bool.and_comm]

/-- The table holds for an address what a limiter for this address alone keeps, which answers as the
limiter of all does. -/
theorem run_follows (h : (addresses rs).card ≤ maxTrackedIps) (ip : Str) :
    SlidingWindow.run 60 rateLimit (timesOf ip rs) =
      (logOf ip (run rateLimit rs).log, ((run rateLimit rs).table.lookup ip).getD []) := by
  -- Induction on the requests.
  induction rs using List.reverseRecOn with
  | nil => rfl
  | append_singleton rs r ih =>
    have hbefore := card_addresses_le.trans h
    -- While the addresses are few, nothing is evicted.
    have hroom : (run rateLimit rs).table.length ≤ maxTrackedIps := by
      rw [← card_tracked, tracked_eq hbefore]
      exact hbefore
    -- The request is the address's own, or another's.
    by_cases hip : r.clientIp = ip
    · have htimes : timesOf ip (rs ++ [r]) = timesOf ip rs ++ [r.now] := by simp [timesOf, hip]
      rw [htimes, SlidingWindow.run_snoc, ih hbefore, run_snoc]
      subst hip
      have hself (times : List ℚ) : ((run rateLimit rs).table.filter (·.1 ≠ r.clientIp) ++
          [(r.clientIp, times)]).lookup r.clientIp = some times := by
        rw [List.lookup_append, lookup_filter_self, Option.none_or, List.lookup_cons_self]
      unfold SlidingWindow.step SlidingWindow.admitting SlidingWindow.counting Run.step checkRateLimit
      rw [evict_of_le hroom]
      dsimp only
      split_ifs
      · rw [hself]
        simp [logOf]
      · rw [hself]
        simp [logOf]
    · have htimes : timesOf ip (rs ++ [r]) = timesOf ip rs := by simp [timesOf, hip]
      obtain ⟨times, htable⟩ := checkRateLimit_table rateLimit r (run rateLimit rs).table
      have hlast : [(r.clientIp, times)].lookup ip = none := lookup_of_forall_ne (by simpa using hip)
      rw [htimes, ih hbefore, run_snoc, Run.step, htable, evict_of_le hroom, List.lookup_append,
        lookup_filter_ne (Ne.symm hip), hlast, Option.or_none]
      simp [logOf, hip]

end Follows

/-! ## When it is exact -/

section Exact

variable {rateLimit : ℕ} {rs : List Request}

/-- An address's requests come in order of time. -/
theorem timesOf_sorted (hsorted : rs.Pairwise (·.now ≤ ·.now)) (ip : Str) :
    (timesOf ip rs).Pairwise (· ≤ ·) :=
  List.pairwise_map.mpr (hsorted.sublist List.filter_sublist)

/-- No window holds more accepted requests than the limit. -/
theorem length_accepted_le (hsorted : rs.Pairwise (·.now ≤ ·.now))
    (hfew : (addresses rs).card ≤ maxTrackedIps) (ip : Str) (t : ℚ) :
    ((accepted ip (run rateLimit rs).log).filter fun a => t ≤ a ∧ a < t + 60).length ≤ rateLimit := by
  have hle : ((SlidingWindow.accepted (SlidingWindow.run 60 rateLimit (timesOf ip rs)).1).filter
      fun a => t ≤ a ∧ a - t < 60).length ≤ rateLimit :=
    SlidingWindow.length_window_le (timesOf_sorted hsorted ip) t
  rw [run_follows hfew ip, accepted_logOf] at hle
  simpa only [sub_lt_iff_lt_add'] using hle

/-- Where a request is refused, the window before it is full. -/
theorem full_of_refused (hsorted : rs.Pairwise (·.now ≤ ·.now))
    (hfew : (addresses rs).card ≤ maxTrackedIps) {before after : List (Request × Bool)} {r : Request}
    (h : (run rateLimit rs).log = before ++ (r, false) :: after) :
    rateLimit ≤ ((accepted r.clientIp before).filter fun a => r.now - 60 < a ∧ a ≤ r.now).length := by
  have hlog : (SlidingWindow.run 60 rateLimit (timesOf r.clientIp rs)).1 =
      logOf r.clientIp before ++ (r.now, false) :: logOf r.clientIp after := by
    rw [run_follows hfew, h]
    simp [logOf]
  have hle := SlidingWindow.full_of_refused (timesOf_sorted hsorted r.clientIp) hlog
  rw [accepted_logOf] at hle
  simpa only [sub_lt_comm, and_comm] using hle

/-- The limiter is exact when there are no more addresses than it may track, and only then. -/
theorem rateLimitExact_iff (rateLimit : ℕ) (rs : List Request) :
    Exact rateLimit rs ↔ (addresses rs).card ≤ maxTrackedIps := by
  constructor
  · intro hexact
    -- With one address more than it may track, the limiter is over its bound.
    by_contra hmany
    obtain ⟨before, hprefix, hover⟩ : ∃ before, before <+: rs ∧
        maxTrackedIps < (run rateLimit before).table.length :=
      exists_overfull (Nat.lt_of_not_le hmany)
    have hbounded := hexact.bounded before hprefix
    omega
  · intro hfew
    constructor
    case atMost => exact fun hsorted hfew => length_accepted_le hsorted hfew
    case onlyFull => exact fun hsorted hfew _ _ _ h => full_of_refused hsorted hfew h
    case bounded =>
      rintro before ⟨after, rfl⟩
      have hsub : addresses before ⊆ addresses (before ++ after) := by
        intro ip hip
        simp only [addresses, List.map_append, List.toFinset_append, Finset.mem_union]
        exact .inl hip
      have hbefore := (Finset.card_le_card hsub).trans hfew
      rw [← card_tracked, tracked_eq hbefore]
      exact hbefore

end Exact

/-! ## One address too many -/

/-- The digits of a hexadecimal number. -/
def hexDigits : List Char := "0123456789abcdef".toList

/-- Two times 256 addresses. -/
def crowdIps : List Str :=
  (['1', '2'] ×ˢ hexDigits ×ˢ hexDigits).map fun (a, b, c) => "fd00::".toList ++ [a, b, c]

/-- One request from each, all at one time. -/
def crowd : List Request := crowdIps.map fun ip => ⟨ip, 0⟩

/-- The addresses of the crowd are all different. -/
theorem nodup_crowdIps : crowdIps.Nodup := by
  have hdigits : hexDigits.Nodup := by decide
  apply List.Nodup.map
  · rintro ⟨a, b, c⟩ ⟨a', b', c'⟩ h
    simpa using h
  · exact List.Nodup.product (by decide) (List.Nodup.product hdigits hdigits)

/-- The crowd has 512 addresses. -/
theorem length_crowdIps : crowdIps.length = 512 := by
  rw [crowdIps, List.length_map, List.length_product, List.length_product]
  decide

/-- The requests of the crowd come from 512 addresses. -/
theorem card_addresses_crowd : (addresses crowd).card = 512 := by
  have hips : crowd.map Request.clientIp = crowdIps := by
    rw [crowd, List.map_map]
    exact List.map_id _
  rw [addresses, hips, List.toFinset_card_of_nodup nodup_crowdIps, length_crowdIps]

/-- More addresses are tracked than there should be. -/
theorem crowd_overfull : ¬Exact 10 crowd := by
  intro hexact
  obtain ⟨before, hprefix, hover⟩ : ∃ before, before <+: crowd ∧
      maxTrackedIps < (run 10 before).table.length :=
    exists_overfull (by rw [card_addresses_crowd]; decide)
  exact absurd (hexact.bounded before hprefix) (Nat.not_le_of_lt hover)

end Fraisier.Webhook.RateLimit
