import Mathlib.Algebra.Order.Ring.Rat
import Mathlib.Tactic.Linarith
import Fraisier.Lib.Fallible
import Fraisier.Lib.Text
import Fraisier.Lib.Window
import Fraisier.Webhook.Deliveries

/-!
# Replays of deliveries

What `generic_webhook` does with an authenticated delivery of GitHub, from the check of its id on:
`_delivery_dedupe` records the id before the request is parsed and dispatched. In a run in which
every delivery that is recorded also completes, only a processed delivery is answered as a replay;
that a processed one is not processed again holds in every run.
-/

namespace Fraisier.Webhook

open Fraisier.Lib Unicode Json Fallible

/-! ## Deliveries -/

/-- `WEBHOOK_DEDUPE_WINDOW_SECONDS`. -/
def dedupeWindowSeconds : ℚ := 600

/-- `WEBHOOK_DEDUPE_MAX_ENTRIES`. -/
def dedupeMaxEntries : ℕ := 4096

/-- `_delivery_dedupe`, by the times in seconds. -/
def deliveryDedupe : Window ℚ where
  max := dedupeMaxEntries
  expired now t := dedupeWindowSeconds < now - t
  mono := by
    intro now now' t hle h
    rw [decide_eq_true_eq] at h ⊢
    linarith

/-- A delivery that `_verify_signature` has let through, and the host that it reaches. -/
structure GitHubDelivery where
  headers : Headers
  body : List ℕ
  /-- `time.time()`. -/
  now : ℚ
  host : WebhookHost
  /-- `db.record_webhook_event` returns. -/
  recorded : Bool

/-- `normalized_headers.get("x-github-delivery", "").strip()`. -/
def GitHubDelivery.deliveryId (d : GitHubDelivery) : Text :=
  stripBlanks ((d.headers.get "x-github-delivery").getD [])

/-! ## Answers -/

/-- The answer to a request. -/
inductive Answer
  | ok (response : Response)
  /-- `missing delivery id`, and `Invalid JSON payload`. -/
  | validationError
  | replayRejected
  /-- An exception that nothing catches. -/
  | internalServerError
  /-- `_unavailable`. -/
  | unavailable

/-- The status code. -/
def Answer.statusCode : Answer → ℕ
  | .ok _ => 200
  | .validationError => 400
  | .replayRejected => 409
  | .internalServerError => 500
  | .unavailable => 503

/-- The request was processed. -/
def Answer.Processed (a : Answer) : Prop := a.statusCode < 400

instance (a : Answer) : Decidable a.Processed := inferInstanceAs (Decidable (_ < _))

/-- `_is_draining_response`. -/
def Response.isDraining : Response → Bool
  | .deployments _ targets => targets.any (·.2 = .draining)
  | _ => false

/-- How deep `request.json()` follows a payload. -/
abbrev MaxDepth := ℕ

/-- `generic_webhook` from `_normalize_event` on. -/
def handleEvent (maxDepth : MaxDepth) (d : GitHubDelivery) : Answer :=
  match loads maxDepth d.body with
  | .error .jsonDecodeError => .validationError
  | .error _ => .internalServerError
  | .ok payload =>
    match GitHubProvider.parseWebhookEvent d.headers payload with
    | .error _ => .internalServerError
    | .ok event =>
      if d.recorded then
        match processWebhookEvent d.host event with
        | .error _ => .internalServerError
        | .ok (response, _) => if response.isDraining then .unavailable else .ok response
      else .internalServerError

/-- The ids that are remembered. -/
abbrev Seen := Window.Store Text ℚ

/-- `generic_webhook` from the check of the delivery's id on. -/
def genericWebhook (maxDepth : MaxDepth) (s : Seen) (d : GitHubDelivery) : Seen × Answer :=
  if d.deliveryId = [] then (s, .validationError)
  else
    let (seen, s') := deliveryDedupe.seen s d.deliveryId d.now
    if seen then (s', .replayRejected) else (s', handleEvent maxDepth d)

/-- The answers to deliveries, one after another. -/
def serve (maxDepth : MaxDepth) : Seen → List GitHubDelivery → List (GitHubDelivery × Answer)
  | _, [] => []
  | s, d :: ds =>
    (d, (genericWebhook maxDepth s d).2) :: serve maxDepth (genericWebhook maxDepth s d).1 ds

/-- What is remembered after them. -/
def seenAfter (maxDepth : MaxDepth) (s : Seen) (ds : List GitHubDelivery) : Seen :=
  ds.foldl (fun s d => (genericWebhook maxDepth s d).1) s

/-! ## Only a processed delivery is a replay -/

/-- A replay is of a processed delivery, and a processed one is not processed again in the window
unless as many other ids came as are remembered. -/
structure OnlyProcessedReplayed (log : List (GitHubDelivery × Answer)) : Prop where
  replayed : ∀ before d after, log = before ++ (d, .replayRejected) :: after →
    ∃ e ∈ before, e.1.deliveryId = d.deliveryId ∧ d.now - e.1.now ≤ dedupeWindowSeconds ∧
      e.2.Processed
  again : ∀ before d a between d' a' after,
    log = before ++ (d, a) :: (between ++ (d', a') :: after) → d'.deliveryId = d.deliveryId →
      a.Processed → a'.Processed → d'.now - d.now ≤ dedupeWindowSeconds →
        dedupeMaxEntries ≤ (((between.map (·.1.deliveryId)).filter (· ≠ [])).toFinset.erase
          d.deliveryId).card

/-- The event is the push of a branch that is mapped to a fraise. -/
def Wanted (host : WebhookHost) (event : WebhookEvent) : Prop :=
  event.isPing = false ∧ event.isPush = true ∧ ∃ b ≠ [], event.branch = .str b ∧ host.Mapped b

/-- The delivery can be processed: it is an event that the decoder reads, the database records it,
and the host is not draining when it is the push of a branch to deploy. -/
structure Completes (maxDepth : MaxDepth) (d : GitHubDelivery) : Prop where
  recorded : d.recorded = true
  event : ∃ payload event, loads maxDepth d.body = .ok payload ∧
    GitHubProvider.parseWebhookEvent d.headers payload = .ok event ∧
      ¬(d.host.draining = true ∧ Wanted d.host event)

/-- A delivery whose id is recorded completes. -/
def Settles (maxDepth : MaxDepth) (s : Seen) (d : GitHubDelivery) : Prop :=
  d.deliveryId = [] ∨ (deliveryDedupe.seen s d.deliveryId d.now).1 = true ∨ Completes maxDepth d

variable {maxDepth : MaxDepth} {s : Seen} {d : GitHubDelivery} {ds : List GitHubDelivery}
  {host : WebhookHost} {event : WebhookEvent} {headers : Headers} {payload : Json}

/-! ## Processing -/

/-- What `_dispatch_deployment` answers for a branch that is a text. -/
theorem dispatchDeployment_ok (host : WebhookHost) (config : Routing) {b : Text}
    (hbranch : event.branch = .str b) :
    ∃ response tasks, dispatchDeployment host config event = .ok (response, tasks) ∧
      (response.isDraining = true ↔
        host.draining = true ∧ config.getFraisesForBranch (.str b) ≠ []) := by
  have hkey : event.branch.key = .ok (.str b) := by rw [hbranch]; rfl
  unfold dispatchDeployment
  rw [hkey, hbranch]
  dsimp only
  -- A branch without fraises is not wanted, whether the host is draining or not.
  by_cases hconfigs : config.getFraisesForBranch (.str b) = []
  · refine ⟨.noFraise, [], by rw [hconfigs]; rfl, ?_⟩
    exact iff_of_false Bool.false_ne_true fun h => h.2 hconfigs
  · rw [if_neg (by simpa using hconfigs)]
    by_cases hdraining : host.draining = true
    · rw [if_pos hdraining]
      refine ⟨_, _, rfl, iff_of_true ?_ ⟨hdraining, hconfigs⟩⟩
      obtain ⟨target, htarget⟩ := List.exists_mem_of_ne_nil _ hconfigs
      refine List.any_eq_true.mpr ⟨(target, .draining), List.mem_map_of_mem htarget, ?_⟩
      rw [decide_eq_true_eq]
    · rw [if_neg hdraining]
      refine ⟨_, _, rfl, iff_of_false ?_ fun h => hdraining h.1⟩
      intro h
      obtain ⟨target, htarget, hstate⟩ := List.any_eq_true.mp h
      obtain ⟨pair, -, rfl⟩ := List.mem_map.mp htarget
      dsimp only at hstate
      split at hstate <;> simp at hstate

/-- What a push of a branch, or without one, is answered. -/
theorem processWebhookEvent_ok (host : WebhookHost)
    (h : event.isPush = true → event.branch = .null ∨ ∃ b, event.branch = .str b) :
    ∃ response tasks, processWebhookEvent host event = .ok (response, tasks) ∧
      (response.isDraining = true ↔ host.draining = true ∧ Wanted host event) := by
  -- A quiet answer is right where the event is not wanted.
  have hquiet : ∀ {response : Response}, processWebhookEvent host event = .ok (response, []) →
      response.isDraining = false → ¬Wanted host event →
        ∃ response tasks, processWebhookEvent host event = .ok (response, tasks) ∧
          (response.isDraining = true ↔ host.draining = true ∧ Wanted host event) :=
    fun heq hfalse hnot => ⟨_, _, heq, iff_of_false (by rw [hfalse]; decide) fun h => hnot h.2⟩
  by_cases hping : event.isPing = true
  · refine hquiet (if_pos hping) rfl fun hwanted => ?_
    have hnot := hwanted.1
    rw [hping] at hnot
    cases hnot
  by_cases hpush : (event.isPush && event.branch.truthy) = true
  · rw [Bool.and_eq_true] at hpush
    have hstep : processWebhookEvent host event = host.config.elim (.ok (.noConfiguration, []))
        fun config => dispatchDeployment host config event := by
      unfold processWebhookEvent
      refine (if_neg hping).trans ((if_pos ?_).trans ?_)
      · rw [hpush.1, hpush.2]
        rfl
      · cases host.config <;> rfl
    -- The branch of a push is nothing, or a text.
    obtain hnull | ⟨b, hbranch⟩ := h hpush.1
    · have htruthy := hpush.2
      rw [hnull] at htruthy
      cases htruthy
    · have hb : b ≠ [] := by
        have htruthy := hpush.2
        rw [hbranch] at htruthy
        rintro rfl
        cases htruthy
      have hwanted : Wanted host event ↔ host.Mapped b := by
        constructor
        · rintro ⟨-, -, b', -, hbranch', hmapped⟩
          rw [hbranch] at hbranch'
          obtain rfl := Json.str.inj hbranch'
          exact hmapped
        · exact fun hmapped => ⟨Bool.not_eq_true _ ▸ hping, hpush.1, b, hb, hbranch, hmapped⟩
      cases hconfig : host.config with
      | none =>
        rw [hconfig] at hstep
        refine hquiet hstep rfl fun h => ?_
        obtain ⟨config, hsome, -⟩ := hwanted.mp h
        rw [hconfig] at hsome
        cases hsome
      | some config =>
        rw [hconfig] at hstep
        obtain ⟨response, tasks, heq, hdraining⟩ := dispatchDeployment_ok host config hbranch
        have hmapped : host.Mapped b ↔ config.getFraisesForBranch (.str b) ≠ [] := by
          unfold WebhookHost.Mapped
          rw [hconfig]
          simp
        exact ⟨response, tasks, hstep.trans heq, by rw [hdraining, hwanted, hmapped]⟩
  -- What is no push, or has no branch, is ignored.
  · have hignored : processWebhookEvent host event = .ok (.ignored, []) := by
      unfold processWebhookEvent
      rw [if_neg hping, if_neg hpush]
    refine hquiet hignored rfl fun hwanted => hpush ?_
    obtain ⟨-, hisPush, b, hb, hbranch, -⟩ := hwanted
    rw [hisPush, hbranch, Bool.true_and]
    cases b with
    | nil => exact absurd rfl hb
    | cons c b => rfl

/-- What is read off a full ref is a text, or nothing. -/
theorem branchOfRef_ok {ref branch : Json} {isTag : Bool}
    (h : branchOfRef ref = .ok (branch, isTag)) :
    branch = .null ∨ ∃ b, branch = .str b := by
  cases ref with
  | str ref =>
    unfold branchOfRef at h
    dsimp only at h
    -- A branch's ref, a tag's ref, or any other text.
    split at h
    · cases h
      exact .inr ⟨_, rfl⟩
    · split at h
      · cases h
        exact .inr ⟨_, rfl⟩
      · cases h
        exact .inl rfl
  | _ => cases h

/-- The details of what is no push say so. -/
theorem github_details {eventType : Text} {details : Details}
    (h : GitHubProvider.details eventType payload = .ok details) :
    (details.branch = .null ∨ ∃ b, details.branch = .str b) ∨
      details.isPush = false ∧ eventType ≠ text "push" := by
  unfold GitHubProvider.details at h
  split at h
  -- The event is a push.
  · obtain ⟨ref, -, h⟩ := bind_ok_iff.mp h
    obtain ⟨⟨branch, isTag⟩, hbranch, h⟩ := bind_ok_iff.mp h
    obtain ⟨after, -, h⟩ := bind_ok_iff.mp h
    refine .inl ?_
    dsimp only at h
    split at h
    · obtain ⟨commitSha, -, h⟩ := bind_ok_iff.mp h
      cases h
      exact branchOfRef_ok hbranch
    · obtain ⟨headCommit, -, h⟩ := bind_ok_iff.mp h
      obtain ⟨commitSha, -, h⟩ := bind_ok_iff.mp h
      cases h
      exact branchOfRef_ok hbranch
  -- The event is another, which may be a pull request.
  · next hpush =>
    refine .inr ⟨?_, hpush⟩
    split at h
    · unfold pullRequestDetails at h
      obtain ⟨prData, -, h⟩ := bind_ok_iff.mp h
      obtain ⟨head, -, h⟩ := bind_ok_iff.mp h
      obtain ⟨branch, -, h⟩ := bind_ok_iff.mp h
      obtain ⟨commitSha, -, h⟩ := bind_ok_iff.mp h
      cases h
      rfl
    · split at h <;> cases h <;> rfl

/-- The branch of a push that GitHub's decoder reads is a text, or none. -/
theorem github_branch (h : GitHubProvider.parseWebhookEvent headers payload = .ok event)
    (hpush : event.isPush = true) : event.branch = .null ∨ ∃ b, event.branch = .str b := by
  unfold GitHubProvider.parseWebhookEvent at h
  obtain ⟨repositoryData, -, h⟩ := bind_ok_iff.mp h
  obtain ⟨repository, -, h⟩ := bind_ok_iff.mp h
  obtain ⟨senderData, -, h⟩ := bind_ok_iff.mp h
  obtain ⟨login, -, h⟩ := bind_ok_iff.mp h
  -- the sender is read in one of two places, and the details after it
  obtain ⟨sender, h⟩ : ∃ sender, (do
      let d ← GitHubProvider.details ((headers.get "x-github-event").getD (text "unknown")) payload
      pure (d.event "github" ((headers.get "x-github-event").getD (text "unknown")) sender
        repository)) = .ok event := by
    dsimp only at h
    split at h
    · obtain ⟨sender, -, h⟩ := bind_ok_iff.mp h
      exact ⟨sender, h⟩
    · obtain ⟨pusher, -, h⟩ := bind_ok_iff.mp h
      obtain ⟨sender, -, h⟩ := bind_ok_iff.mp h
      exact ⟨sender, h⟩
  obtain ⟨details, hdetails, h⟩ := bind_ok_iff.mp h
  cases h
  obtain hbranch | ⟨hnot, htype⟩ := github_details hdetails
  · exact hbranch
  · simp [Details.event, WebhookEvent.postInit, hnot, htype] at hpush

/-- The deliveries that can be processed are those whose event is. -/
theorem completes_iff : Completes maxDepth d ↔ (handleEvent maxDepth d).Processed := by
  have hinvalid : ¬Answer.validationError.Processed := by decide
  have hraised : ¬Answer.internalServerError.Processed := by decide
  have hunavailable : ¬Answer.unavailable.Processed := by decide
  have hok : ∀ response, (Answer.ok response).Processed := fun _ => by
    change 200 < 400
    decide
  unfold handleEvent
  -- The body is read, then the event, and then the event is handled.
  cases hloads : loads maxDepth d.body with
  | error e =>
    have hnot : ¬Completes maxDepth d := by
      rintro ⟨-, payload, event, hok, -⟩
      rw [hloads] at hok
      cases hok
    cases e <;> first | exact iff_of_false hnot hinvalid | exact iff_of_false hnot hraised
  | ok payload =>
    dsimp only
    cases hparse : GitHubProvider.parseWebhookEvent d.headers payload with
    | error e =>
      refine iff_of_false ?_ hraised
      rintro ⟨-, payload', event, hok, hevent, -⟩
      obtain rfl := Except.ok.inj (hloads.symm.trans hok)
      rw [hparse] at hevent
      cases hevent
    | ok event =>
      dsimp only
      by_cases hrecorded : d.recorded = true
      · obtain ⟨response, tasks, hprocess, hdraining⟩ :=
          processWebhookEvent_ok d.host (github_branch hparse)
        rw [if_pos hrecorded, hprocess]
        dsimp only
        by_cases hrefused : response.isDraining = true
        · rw [if_pos hrefused]
          refine iff_of_false ?_ hunavailable
          rintro ⟨-, payload', event', hok, hevent, hcalm⟩
          obtain rfl := Except.ok.inj (hloads.symm.trans hok)
          obtain rfl := Except.ok.inj (hparse.symm.trans hevent)
          exact hcalm (hdraining.mp hrefused)
        · rw [if_neg hrefused]
          refine iff_of_true ⟨hrecorded, payload, event, hloads, hparse, fun h => ?_⟩ (hok response)
          exact hrefused (hdraining.mpr h)
      · rw [if_neg hrecorded]
        exact iff_of_false (fun h => hrecorded h.recorded) hraised

/-! ## Runs -/

/-- Deliveries are served one list after the other. -/
theorem serve_append (before after : List GitHubDelivery) :
    serve maxDepth s (before ++ after) =
      serve maxDepth s before ++ serve maxDepth (seenAfter maxDepth s before) after := by
  induction before generalizing s with
  | nil => rfl
  | cons d before ih => exact congrArg _ ih

/-- Each delivery is served once. -/
theorem map_serve (maxDepth : MaxDepth) (s : Seen) (ds : List GitHubDelivery) :
    (serve maxDepth s ds).map (·.1) = ds := by
  induction ds generalizing s with
  | nil => rfl
  | cons d ds ih => exact congrArg _ (ih _)

/-- What was seen is seen one list after the other. -/
theorem seenAfter_append (before after : List GitHubDelivery) :
    seenAfter maxDepth s (before ++ after) =
      seenAfter maxDepth (seenAfter maxDepth s before) after := List.foldl_append

/-- The log of a run, by an answer in it. -/
theorem serve_eq_append {before after : List (GitHubDelivery × Answer)} {a : Answer}
    (h : serve maxDepth s ds = before ++ (d, a) :: after) :
    ds = before.map (·.1) ++ d :: after.map (·.1) ∧
      before = serve maxDepth s (before.map (·.1)) ∧
      a = (genericWebhook maxDepth (seenAfter maxDepth s (before.map (·.1))) d).2 ∧
      after = serve maxDepth (genericWebhook maxDepth (seenAfter maxDepth s (before.map (·.1))) d).1
        (after.map (·.1)) := by
  -- The deliveries are those of the log, and the answers before one are those of the run to it.
  have hds : ds = before.map (·.1) ++ d :: after.map (·.1) := by
    have hmap := map_serve maxDepth s ds
    rw [h, List.map_append, List.map_cons] at hmap
    exact hmap.symm
  rw [hds, serve_append] at h
  have hlength : (serve maxDepth s (before.map (·.1))).length = before.length := by
    have hmap := congrArg List.length (map_serve maxDepth s (before.map (·.1)))
    simpa using hmap
  obtain ⟨hbefore, hrest⟩ := List.append_inj h hlength
  obtain ⟨hhead, hafter⟩ := List.cons.inj hrest
  exact ⟨hds, hbefore.symm, (Prod.mk.inj hhead).2.symm, hafter.symm⟩

/-- What one delivery leaves remembered: what was, less what is forgotten, and its own id when it is
new. -/
theorem mem_genericWebhook {e : Text × ℚ} (h : e ∈ (genericWebhook maxDepth s d).1) :
    e ∈ s ∨ e = (d.deliveryId, d.now) ∧ d.deliveryId ≠ [] ∧
      (deliveryDedupe.seen s d.deliveryId d.now).1 = false := by
  unfold genericWebhook at h
  split at h
  · exact .inl h
  · next hid =>
    have hmem : e ∈ (deliveryDedupe.seen s d.deliveryId d.now).2 := by
      dsimp only at h
      split at h <;> exact h
    obtain hold | ⟨hnew, heq⟩ := Window.mem_of_mem_seen hmem
    · exact .inl hold
    · exact .inr ⟨heq, hid, hnew⟩

/-- Every id that is remembered was recorded when its delivery came. -/
theorem exists_of_mem_seenAfter {e : Text × ℚ} (h : e ∈ seenAfter maxDepth [] ds) :
    ∃ before d after, ds = before ++ d :: after ∧ d.deliveryId = e.1 ∧ d.now = e.2 ∧
      d.deliveryId ≠ [] ∧
      (deliveryDedupe.seen (seenAfter maxDepth [] before) d.deliveryId d.now).1 = false := by
  induction ds using List.reverseRecOn with
  | nil => exact absurd h List.not_mem_nil
  | append_singleton ds d ih =>
    rw [seenAfter_append] at h
    obtain hold | ⟨rfl, hid, hnew⟩ := mem_genericWebhook h
    · obtain ⟨before, d', after, hds, hrest⟩ := ih hold
      refine ⟨before, d', after ++ [d], ?_, hrest⟩
      rw [hds, List.append_assoc]
      rfl
    · exact ⟨ds, d, [], rfl, rfl, rfl, hid, hnew⟩

/-- The answer to a delivery whose id is new is that to its event. -/
theorem genericWebhook_of_unseen (hid : d.deliveryId ≠ [])
    (hnew : (deliveryDedupe.seen s d.deliveryId d.now).1 = false) :
    (genericWebhook maxDepth s d).2 = handleEvent maxDepth d := by
  unfold genericWebhook
  rw [if_neg hid]
  dsimp only
  rw [if_neg (by rw [hnew]; exact Bool.false_ne_true)]

/-- The status 409 is a replay's. -/
theorem eq_replayRejected {a : Answer} (h : a.statusCode = 409) : a = .replayRejected := by
  cases a <;> first | rfl | cases h

/-- Only a delivery whose id is new is processed. -/
theorem unseen_of_processed (h : (genericWebhook maxDepth s d).2.Processed) :
    d.deliveryId ≠ [] ∧ (deliveryDedupe.seen s d.deliveryId d.now).1 = false := by
  have hvalidation : ¬Answer.validationError.Processed := by decide
  have hreplay : ¬Answer.replayRejected.Processed := by decide
  unfold genericWebhook at h
  split at h
  · exact absurd h hvalidation
  · next hid =>
    dsimp only at h
    split at h
    · exact absurd h hreplay
    · next hnot => exact ⟨hid, Bool.not_eq_true _ ▸ hnot⟩

/-- An event is never answered as a replay. -/
theorem handleEvent_ne_replay : handleEvent maxDepth d ≠ .replayRejected := by
  unfold handleEvent
  intro h
  split at h
  · cases h
  · cases h
  · split at h
    · cases h
    · split at h
      · split at h
        · cases h
        · split at h <;> cases h
      · cases h

/-- Only an id that is seen is answered as a replay. -/
theorem seen_of_replay (h : (genericWebhook maxDepth s d).2 = .replayRejected) :
    (deliveryDedupe.seen s d.deliveryId d.now).1 = true := by
  by_contra hseen
  have hnew := Bool.not_eq_true _ ▸ hseen
  by_cases hid : d.deliveryId = []
  · unfold genericWebhook at h
    rw [if_pos hid] at h
    cases h
  · rw [genericWebhook_of_unseen hid hnew] at h
    exact handleEvent_ne_replay h

/-- What is remembered is what the dedupe store makes of the ids that are not blank. -/
theorem seenAfter_eq_recordAll (maxDepth : MaxDepth) (s : Seen) (ds : List GitHubDelivery) :
    seenAfter maxDepth s ds = deliveryDedupe.recordAll s
      ((ds.filter (·.deliveryId ≠ [])).map fun d => (d.deliveryId, d.now)) := by
  -- Induction on the deliveries: one with a blank id is not stored.
  induction ds generalizing s with
  | nil => rfl
  | cons d ds ih =>
    have hcons : seenAfter maxDepth s (d :: ds) =
        seenAfter maxDepth (genericWebhook maxDepth s d).1 ds := rfl
    rw [hcons, ih]
    by_cases hid : d.deliveryId = []
    · rw [List.filter_cons_of_neg (by simpa using hid)]
      unfold genericWebhook
      rw [if_pos hid]
    · have hstore : (genericWebhook maxDepth s d).1 =
          (deliveryDedupe.seen s d.deliveryId d.now).2 := by
        unfold genericWebhook
        rw [if_neg hid]
        dsimp only
        split <;> rfl
      rw [List.filter_cons_of_pos (by simpa using hid), hstore]
      rfl

/-- The store is in the order of the times. -/
theorem seenAfter_ordered (hsorted : (ds.map (·.now)).Pairwise (· ≤ ·)) {now : ℚ}
    (hnow : ∀ d ∈ ds, d.now ≤ now) : Window.Ordered (seenAfter maxDepth [] ds) now := by
  -- Induction on the deliveries, the last of which is the newest.
  induction ds using List.reverseRecOn generalizing now with
  | nil => exact Window.ordered_nil
  | append_singleton ds d ih =>
    rw [List.map_append, List.map_singleton, List.pairwise_append] at hsorted
    have hbefore : ∀ c ∈ ds, c.now ≤ d.now := fun c hc =>
      hsorted.2.2 c.now (List.mem_map_of_mem hc) d.now (List.mem_singleton_self _)
    have hlast : d.now ≤ now := hnow d (List.mem_append_right _ (List.mem_singleton_self _))
    have hold := ih hsorted.1 hbefore
    have hstep : Window.Ordered (genericWebhook maxDepth (seenAfter maxDepth [] ds) d).1 d.now := by
      unfold genericWebhook
      split
      · exact hold
      · dsimp only
        split <;> exact hold.seen le_rfl d.deliveryId
    rw [seenAfter_append]
    exact hstep.of_sublist (List.Sublist.refl _) hlast

/-! ## The two halves -/

/-- Where what is recorded completes, what is answered as a replay was processed. -/
theorem processed_of_replayed (before : List GitHubDelivery)
    (hsettles : ∀ older e newer, before = older ++ e :: newer →
      Settles maxDepth (seenAfter maxDepth [] older) e)
    (h : (genericWebhook maxDepth (seenAfter maxDepth [] before) d).2 = .replayRejected) :
    ∃ e ∈ serve maxDepth [] before, e.1.deliveryId = d.deliveryId ∧
      d.now - e.1.now ≤ dedupeWindowSeconds ∧ e.2.Processed := by
  obtain ⟨t, hmem, hfresh⟩ := Window.seen_iff.mp (seen_of_replay h)
  obtain ⟨older, e, newer, rfl, hid, hnow, hnonblank, hnew⟩ := exists_of_mem_seenAfter hmem
  dsimp only at hid hnow
  -- The delivery that stored the id was the first with it, so it was to complete.
  have hcompletes : Completes maxDepth e := by
    obtain hblank | hseen | hcompletes := hsettles older e newer rfl
    · exact absurd hblank hnonblank
    · rw [hnew] at hseen
      cases hseen
    · exact hcompletes
  refine ⟨(e, (genericWebhook maxDepth (seenAfter maxDepth [] older) e).2), ?_, hid, ?_, ?_⟩
  · rw [serve_append]
    exact List.mem_append_right _ List.mem_cons_self
  · have hle := not_lt.mp (of_decide_eq_false hfresh)
    rwa [hnow]
  · dsimp only
    rw [genericWebhook_of_unseen hnonblank hnew]
    exact completes_iff.mp hcompletes

/-- What was processed is not processed again in the window, unless it was crowded out. -/
theorem crowded_of_again (before : List GitHubDelivery) {d' : GitHubDelivery}
    {between after : List GitHubDelivery}
    (hsorted : ((before ++ d :: (between ++ d' :: after)).map (·.now)).Pairwise (· ≤ ·))
    (hsame : d'.deliveryId = d.deliveryId)
    (hfirst : (genericWebhook maxDepth (seenAfter maxDepth [] before) d).2.Processed)
    (hsecond : (genericWebhook maxDepth (seenAfter maxDepth
      (genericWebhook maxDepth (seenAfter maxDepth [] before) d).1 between) d').2.Processed)
    (hwindow : d'.now - d.now ≤ dedupeWindowSeconds) :
    dedupeMaxEntries ≤ (((between.map (·.deliveryId)).filter (· ≠ [])).toFinset.erase
      d.deliveryId).card := by
  obtain ⟨hid, hnew⟩ := unseen_of_processed hfirst
  have hstore : (genericWebhook maxDepth (seenAfter maxDepth [] before) d).1 =
      (deliveryDedupe.seen (seenAfter maxDepth [] before) d.deliveryId d.now).2 := by
    unfold genericWebhook
    rw [if_neg hid]
    dsimp only
    split <;> rfl
  rw [hstore, seenAfter_eq_recordAll] at hsecond
  have hunseen := (unseen_of_processed hsecond).2
  rw [hsame] at hunseen
  -- the times before the first, and those from it to the second
  rw [List.map_append, List.map_cons, List.pairwise_append] at hsorted
  have hordered : Window.Ordered (seenAfter maxDepth [] before) d.now :=
    seenAfter_ordered hsorted.1 fun c hc =>
      hsorted.2.2 c.now (List.mem_map_of_mem hc) d.now List.mem_cons_self
  have htimes : (d.now :: (((between.filter (·.deliveryId ≠ [])).map
      fun d => (d.deliveryId, d.now)).map (·.2) ++ [d'.now])).Pairwise (· ≤ ·) := by
    refine hsorted.2.1.sublist (List.Sublist.cons_cons _ ?_)
    rw [List.map_append, List.map_map, List.map_cons]
    exact (List.filter_sublist.map _).append (List.Sublist.cons_cons _ (List.nil_sublist _))
  have hfresh : deliveryDedupe.expired d'.now d.now = false :=
    decide_eq_false (not_lt.mpr hwindow)
  have hcrowded := Window.crowded_of_unseen hordered le_rfl hnew htimes hfresh hunseen
  have hkeys : ((between.filter (·.deliveryId ≠ [])).map
      fun d => (d.deliveryId, d.now)).map (·.1) =
        (between.map (·.deliveryId)).filter (· ≠ []) := by
    rw [List.map_map, List.filter_map]
    rfl
  rwa [hkeys] at hcrowded

/-! ## Every run -/

/-- Deliveries in the order of their times. -/
def InOrder (ds : List GitHubDelivery) : Prop := (ds.map (·.now)).Pairwise (· ≤ ·)

instance (ds : List GitHubDelivery) : Decidable (InOrder ds) :=
  inferInstanceAs (Decidable (List.Pairwise _ _))

/-- In a run in which every delivery whose id is recorded completes, only a processed delivery is
answered as a replay; and none is processed twice. -/
theorem only_processed_replayed (maxDepth : MaxDepth) (ds : List GitHubDelivery)
    (hsorted : InOrder ds)
    (hsettles : ∀ before d after, ds = before ++ d :: after →
      Settles maxDepth (seenAfter maxDepth [] before) d) :
    OnlyProcessedReplayed (serve maxDepth [] ds) where
  -- What is replayed was remembered, and so was processed.
  replayed := by
    intro before d after hlog
    obtain ⟨hds, hbefore, hanswer, -⟩ := serve_eq_append hlog
    rw [hbefore]
    refine processed_of_replayed _ (fun older e newer heq => hsettles older e
      (newer ++ d :: after.map (·.1)) ?_) hanswer.symm
    rw [hds, heq, List.append_assoc]
    rfl
  -- An id is processed a second time only when the store was crowded in between.
  again := by
    intro before d a between d' a' after hlog hsame hfirst hsecond hwindow
    obtain ⟨hds, -, hanswer, hrest⟩ := serve_eq_append hlog
    obtain ⟨hbetween, -, hanswer', -⟩ := serve_eq_append hrest.symm
    rw [hanswer] at hfirst
    rw [hanswer'] at hsecond
    rw [InOrder, hds, hbetween] at hsorted
    have hcrowded := crowded_of_again _ hsorted hsame hfirst hsecond hwindow
    rwa [List.map_map] at hcrowded

/-- A push of `main`, as it comes. -/
def pushDelivery (host : WebhookHost) (now : ℚ) : GitHubDelivery where
  headers := (text "x-github-delivery", text "72d3162e") :: pushHeaders
  body := (text "\x7b\"ref\": \"refs/heads/main\"\x7d").map (·.val)
  now := now
  host := host
  recorded := true

/-- The host while it upgrades itself. -/
def drainingHost : WebhookHost := { mainHost with draining := true }

/-- The second push is a replay of the first, which was processed. -/
theorem second_push_is_replay :
    OnlyProcessedReplayed (serve 100 [] [pushDelivery mainHost 0, pushDelivery mainHost 60]) :=
  only_processed_replayed 100 _ (by decide +kernel) fun before d after heq => by
    match before with
    | [] =>
      obtain ⟨rfl, -⟩ := List.cons.inj heq
      exact .inr (.inr (completes_iff.mpr (by decide +kernel)))
    | [e] =>
      obtain ⟨rfl, hrest⟩ := List.cons.inj heq
      obtain ⟨rfl, -⟩ := List.cons.inj hrest
      exact .inr (.inl (by decide +kernel))
    | _ :: _ :: _ => simp at heq

/-- A push that is to be sent again once the host has upgraded itself is then a replay. -/
theorem refused_push_is_replay :
    ¬∀ maxDepth ds, InOrder ds → OnlyProcessedReplayed (serve maxDepth [] ds) := by
  intro h
  have hcodes : (serve 100 [] [pushDelivery drainingHost 0, pushDelivery mainHost 60]).map
      (·.2.statusCode) = [503, 409] := by decide +kernel
  have hlog := h 100 [pushDelivery drainingHost 0, pushDelivery mainHost 60] (by decide +kernel)
  obtain ⟨hfirst, hcodes⟩ := List.cons.inj hcodes
  obtain ⟨hsecond, -⟩ := List.cons.inj hcodes
  obtain ⟨e, he, -, -, hprocessed⟩ := hlog.replayed [_] _ []
    (congrArg (fun a => [_, (pushDelivery mainHost 60, a)]) (eq_replayRejected hsecond))
  obtain rfl := List.mem_singleton.mp he
  exact absurd (hfirst ▸ hprocessed : 503 < 400) (by decide)

end Fraisier.Webhook
