import Fraisier.Install.Judged

/-!
# Whose units the helper stops

The helper stops and disables a unit only where it finds the unit's marker, which is to keep a
client from stopping units that the helper did not install. A marker is written after a unit's file,
and also alone, for a unit that is there already; and a client may ask for a marker of any unit.
`stops_installed` is the law without such a request, `stops_foreign` a run with one.
-/

namespace Fraisier.Install

open Fraisier.Lib Interaction Str Fraisier.Unit

/-! ## Requests in sequence -/

/-- A request: what the helper was started with, and the manifest. -/
structure Request where
  allowlist : List AllowlistEntry
  resolved : ResolvedAllowlist
  manifest : Manifest

/-- The helper is asked to write the unit's marker and nothing else of it. -/
def Request.MarksOnly (unit : Str) (request : Request) : Prop :=
  ∃ op, Operation.writeMarker op ∈ request.manifest.operations ∧ unitName op.destPath = unit

/-- Requests one after another. However one ends, the helper goes on to the next. -/
def serve (requests : List Request) : InstallM Unit :=
  requests.foldlM (fun _ request => do
    let _ ← attempt (handleManifest request.allowlist request.resolved request.manifest)
    pure ()) ()

/-- `systemctl stop` or `systemctl disable` of the unit. -/
def InstallCall.Stops (unit : Str) (c : InstallCall) : Prop :=
  c = .systemctl (postActionCmd (.stop unit)) ∨ c = .systemctl (postActionCmd (.disableNow unit))

/-- The unit's marker is written. -/
def InstallCall.Marks (unit : Str) : InstallCall → Prop
  | .writeMarker _ unit' _ => unit' = unit
  | _ => False

/-- In the directories of the requests, there is a marker of the unit only if the helper wrote one:
none was there at the start, and nobody else writes there. It may be gone at any time. -/
def OwnMarkers (requests : List Request) (unit : Str) : Rely InstallCall.Answer := fun h e =>
  ∀ request ∈ requests, ∀ dest ∈ request.resolved.dests,
    e = ⟨.pathExists (dest.1.join (unit ++ markerSuffix)), true⟩ → ∃ e' ∈ h, e'.1.Marks unit

/-- An `InstallFileOp` has written the unit's file. -/
def Installed (unit : Str) (h : Calls) : Prop :=
  ∃ dir data, (⟨.writeFile dir unit data, .done⟩ : Sigma InstallCall.Answer) ∈ h

/-- The unit was installed before it was marked, and before anything stopped it. -/
structure Scoped (unit : Str) (h : Calls) : Prop where
  marked : ∀ e ∈ h, e.1.Marks unit → Installed unit h
  stopped : ∀ before e after, h = before ++ e :: after → e.1.Stops unit → Installed unit before

variable {requests : List Request} {request : Request} {unit : Str} {h : Calls}
  {R : Rely InstallCall.Answer}

/-! ## One call -/

/-- A unit that was installed stays so. -/
theorem Installed.mono {es : Calls} (hi : Installed unit h) : Installed unit (h ++ es) := by
  obtain ⟨dir, data, hmem⟩ := hi
  exact ⟨dir, data, List.mem_append_left _ hmem⟩

/-- A call that marks or stops the unit comes after the unit is installed. -/
theorem Scoped.snoc (hs : Scoped unit h) {e : Sigma InstallCall.Answer}
    (he : e.1.Marks unit ∨ e.1.Stops unit → Installed unit h) : Scoped unit (h ++ [e]) where
  marked e' he' hmarks := by
    rcases List.mem_append.mp he' with hold | hnew
    · exact (hs.marked e' hold hmarks).mono
    · rw [List.mem_singleton.mp hnew] at hmarks
      exact (he (.inl hmarks)).mono
  stopped before e' after hsplit hstops := by
    rcases List.eq_nil_or_concat after with rfl | ⟨after, last, rfl⟩
    · obtain ⟨rfl, he'⟩ := List.append_inj' hsplit rfl
      rw [← List.singleton_inj.mp he'] at hstops
      exact he (.inr hstops)
    · have hsplit' : h ++ [e] = before ++ e' :: after ++ [last] := by
        rw [hsplit, List.concat_eq_append, List.append_assoc, List.cons_append]
      exact hs.stopped before e' after (List.append_inj' hsplit' rfl).1 hstops

/-- A program that neither marks nor stops the unit. -/
theorem scoped_of_makes {α : Type} {p : InstallM α} {Q : α → Prop}
    (hp : p.Makes (fun c => ¬c.Marks unit ∧ ¬c.Stops unit) Q) : Keeps R (Scoped unit) p :=
  hp.keeps fun _ _ hs hc => hs.snoc fun he => (he.elim hc.1 hc.2).elim

/-- What only looks neither marks nor stops a unit. -/
theorem scoped_of_looks {α : Type} {p : InstallM α} {Q : α → Prop} (hp : p.Makes (¬·.Acts) Q) :
    Keeps R (Scoped unit) p := by
  refine scoped_of_makes (hp.mono (fun c hc => ?_) fun _ => id)
  constructor
  · intro hmarks
    cases c with
    | writeMarker => exact hc trivial
    | _ => exact hmarks
  · rintro (rfl | rfl) <;> exact hc trivial

/-! ## Operations -/

/-- A marker that is written keeps the unit installed before it is marked or stopped. -/
theorem writeMarkerIntoDirFd_scoped (dir : OpenDir) (name : Str) (marker : MarkerMeta)
    (hs : Scoped unit h) (hi : name = unit → Installed unit h) :
    (writeMarkerIntoDirFd dir name marker).Ends R h (fun _ => Scoped unit) fun _ => Scoped unit := by
  unfold writeMarkerIntoDirFd
  rw [ends_bind, ends_ask]
  intro r _
  have hs' : Scoped unit (h ++ [⟨.writeMarker dir name marker, r⟩]) := by
    refine hs.snoc fun he => ?_
    rcases he with hmarks | hstops | hstops
    · exact hi hmarks
    all_goals cases hstops
  cases r with
  | done | link | raised => exact hs'

/-- After a unit's file is written, the unit is installed. -/
theorem writeIntoDirFd_scoped (dir : OpenDir) (name : Str) (data : ByteArray) {rest : InstallM Unit}
    (hrest : ∀ h, Scoped unit h → (name = unit → Installed unit h) →
      rest.Ends R h (fun _ => Scoped unit) fun _ => Scoped unit) :
    Keeps R (Scoped unit) (writeIntoDirFd dir name data >>= fun _ => rest) := by
  intro h hs
  unfold writeIntoDirFd
  rw [ends_bind, ends_bind, ends_ask]
  intro r _
  -- The write of a unit's file is neither a marker nor a stop.
  have hs' : Scoped unit (h ++ [⟨.writeFile dir name data, r⟩]) := by
    refine hs.snoc fun he => ?_
    rcases he with hmarks | hstops | hstops
    · exact hmarks.elim
    all_goals cases hstops
  cases r with
  | link | raised => exact hs'
  | done =>
    refine hrest _ hs' fun hname => ⟨dir, data, ?_⟩
    rw [← hname]
    exact List.mem_append_right _ (List.mem_singleton_self _)

/-- A unit is installed before it is marked. -/
theorem executeInstallFileOp_scoped (op : InstallFileOp) (resolved : ResolvedAllowlist)
    (data : Option ByteArray) :
    Keeps R (Scoped unit) (executeInstallFileOp op resolved data) := by
  unfold executeInstallFileOp
  refine (scoped_of_looks (openDest_makes _)).bind fun dir => ?_
  have hread : Keeps R (Scoped unit) (readSource op.sourcePath resolved) :=
    scoped_of_looks (onlyLooks_readSource _ _)
  -- Whether or not the source is read again, the file is written before the marker.
  cases op.marker with
  | none => cases data with
    | some data => exact writeIntoDirFd_scoped dir _ data fun _ hs _ => hs
    | none => exact hread.bind fun data => writeIntoDirFd_scoped dir _ data fun _ hs _ => hs
  | some marker => cases data with
    | some data => exact writeIntoDirFd_scoped dir _ data fun _ hs hi =>
        writeMarkerIntoDirFd_scoped dir _ marker hs hi
    | none => exact hread.bind fun data => writeIntoDirFd_scoped dir _ data fun _ hs hi =>
        writeMarkerIntoDirFd_scoped dir _ marker hs hi

/-- An operation keeps the unit installed before it is marked or stopped. -/
theorem executeOperation_scoped (hmarks : ¬request.MarksOnly unit)
    (contents : List (ℕ × ByteArray)) (acc : List Str × List Str) {item : Operation × ℕ}
    (hitem : item ∈ request.manifest.operations.zipIdx) :
    Keeps R (Scoped unit) (executeOperation request.resolved contents acc item) := by
  unfold executeOperation
  refine (scoped_of_looks (onlyLooks_checkManifestDeadline _ _)).bind fun _ => ?_
  obtain ⟨op, i⟩ := item
  cases op with
  | installFile op =>
    exact (executeInstallFileOp_scoped op _ _).bind fun _ => keeps_pure
  | writeMarker op =>
    -- No operation of the request marks this unit alone.
    have hname : unitName op.destPath ≠ unit := fun hname =>
      hmarks ⟨op, (List.mem_zipIdx' hitem).2 ▸ List.getElem_mem _, hname⟩
    refine Keeps.bind ?_ fun _ => keeps_pure
    refine (scoped_of_looks (openDest_makes _)).bind fun dir h hs => ?_
    exact writeMarkerIntoDirFd_scoped dir _ _ hs fun h => absurd h hname

/-! ## Post-actions -/

/-- A marker that is found was written, so its unit was installed. -/
theorem markerPresent_installed (hrequest : request ∈ requests) (hs : Scoped unit h)
    {dests : List (PurePath × DirId)} (hdests : ∀ dest ∈ dests, dest ∈ request.resolved.dests) :
    (markerPresent unit dests).Ends (OwnMarkers requests unit) h
      (fun present h => Scoped unit h ∧ (present = true → Installed unit h))
      fun _ => Scoped unit := by
  -- Induction on the directories, which are searched in order.
  induction dests generalizing h with
  | nil => exact ⟨hs, nofun⟩
  | cons dest rest ih =>
    unfold markerPresent
    rw [ends_bind, ends_ask]
    intro present hrely
    have hs' : Scoped unit (h ++ [⟨.pathExists (dest.1.join (unit ++ markerSuffix)), present⟩]) := by
      refine hs.snoc fun he => ?_
      rcases he with hmarks | hstops | hstops
      · exact hmarks.elim
      all_goals cases hstops
    cases present with
    | false => exact ih hs' fun dest hdest => hdests dest (List.mem_cons_of_mem _ hdest)
    | true =>
      obtain ⟨e, he, hmarks⟩ :=
        hrely request hrequest dest (hdests dest List.mem_cons_self) rfl
      exact ⟨hs', fun _ => (hs.marked e he hmarks).mono⟩

/-- A post-action that is not the unit's own stop leaves it running. -/
theorem not_stops {action : PostAction} (haction : ∀ kind, action.guarded ≠ some (kind, unit)) :
    ¬(InstallCall.systemctl (postActionCmd action)).Stops unit := by
  rintro (hstop | hdisable)
  · cases action <;> simp_all [postActionCmd, PostAction.guarded]
  · cases action <;> simp_all [postActionCmd, PostAction.guarded]

/-- A command stops the unit only once it is installed. -/
theorem runPostAction_scoped {action : PostAction} (hs : Scoped unit h)
    (hi : (InstallCall.systemctl (postActionCmd action)).Stops unit → Installed unit h) :
    (runPostAction action).Ends R h (fun _ => Scoped unit) fun _ => Scoped unit := by
  unfold runPostAction
  rw [ends_bind, ends_ask]
  intro r _
  have hs' : Scoped unit (h ++ [⟨.systemctl (postActionCmd action), r⟩]) :=
    hs.snoc fun he => hi (he.resolve_left id)
  cases r with
  | exited | timedOut | raised => exact hs'

/-- A post action keeps the unit installed before it is marked or stopped. -/
theorem executePostAction_scoped (hrequest : request ∈ requests) (action : PostAction) :
    Keeps (OwnMarkers requests unit) (Scoped unit) (executePostAction action request.resolved) := by
  intro h hs
  unfold executePostAction
  split
  -- An action that is not guarded stops nothing.
  · rename_i hfree
    refine runPostAction_scoped hs fun hstops => absurd hstops (not_stops fun kind => ?_)
    rw [hfree]
    exact nofun
  · rename_i kind unit' hguarded
    rw [ends_bind]
    -- The guarded unit is the one that is looked at, or another.
    by_cases hunit : unit' = unit
    · subst hunit
      refine (markerPresent_installed hrequest hs fun _ => id).mono ?_ fun _ _ => id
      rintro present h ⟨hs, hi⟩
      cases present with
      | true => exact runPostAction_scoped hs fun _ => hi rfl
      | false => exact hs
    · refine (scoped_of_looks (onlyLooks_markerPresent unit' _) h hs).mono (fun present h hs => ?_)
        fun _ _ => id
      cases present with
      | false => exact hs
      | true =>
        refine runPostAction_scoped hs fun hstops => absurd hstops (not_stops fun kind => ?_)
        rw [hguarded]
        simp [hunit]

/-! ## Requests -/

/-- A manifest keeps the unit installed before it is marked or stopped. -/
theorem executeManifest_scoped (hrequest : request ∈ requests) (hmarks : ¬request.MarksOnly unit)
    (contents : List (ℕ × ByteArray)) :
    Keeps (OwnMarkers requests unit) (Scoped unit)
      (executeManifest request.manifest request.resolved contents) := by
  unfold executeManifest
  refine (Keeps.foldlM fun acc item hitem => ?_).bind fun acc => ?_
  · exact executeOperation_scoped hmarks contents acc hitem
  refine (Keeps.foldlM fun results item _ => ?_).bind fun results => keeps_pure
  unfold executeAction
  refine (scoped_of_looks (onlyLooks_checkManifestDeadline _ _)).bind fun _ => ?_
  exact (executePostAction_scoped hrequest item.1).bind fun _ => keeps_pure

/-- Accepting a request keeps the unit installed before it is marked or stopped. -/
theorem accept_scoped (request : Request) :
    Keeps R (Scoped unit) (accept request.allowlist request.resolved request.manifest) := by
  unfold accept
  refine (scoped_of_looks (onlyLooks_validateManifest _ _)).bind fun _ => ?_
  have hload : OnlyLooks loadPolicy := by
    refine (makes_ask id).bind fun read _ => ?_
    cases read with
    | policy | refused | raised => trivial
  exact (scoped_of_looks hload).bind fun policy => scoped_of_looks (judgeSources_makes _ _ policy)

/-- One request, whatever it asks for but a marker of its own. -/
theorem handleManifest_scoped (hrequest : request ∈ requests) (hmarks : ¬request.MarksOnly unit) :
    Keeps (OwnMarkers requests unit) (Scoped unit)
      (handleManifest request.allowlist request.resolved request.manifest) := by
  unfold handleManifest
  refine (accept_scoped request).attempt.bind fun accepted => ?_
  rcases accepted with (_ | _ | _) | contents
  · exact keeps_pure
  · exact keeps_raise
  · exact keeps_raise
  -- The lock is only asked for, so what is left is the execution under it.
  have hlock : OnlyLooks (ask InstallCall.lock : InstallM LockEnd) := makes_ask id
  show Keeps _ _ (execute request.resolved request.manifest contents)
  unfold execute
  refine (scoped_of_looks hlock).bind fun lock => ?_
  cases lock with
  | raised => exact keeps_raise
  | busy => exact keeps_pure
  | taken =>
    refine (executeManifest_scoped hrequest hmarks contents).attempt.bind fun r => ?_
    rcases r with (_ | _ | _) | _
    · exact keeps_pure
    · exact keeps_pure
    · exact keeps_raise
    · exact keeps_pure

/-- Who the marker says asked for the unit. -/
def appMarker : MarkerMeta where
  fraisesYamlPath := "/srv/app/fraises.yaml".toList
  fraiseName := "app".toList
  environment := "production".toList
  jobName := "job".toList

/-- A request to a helper that installs units from `sourceDir` in `unitDir`. -/
def appRequest (operations : List Operation) (postActions : List PostAction) : Request where
  allowlist := [⟨sourceDir, unitDir⟩]
  resolved := ⟨[(unitDir, (1, 2))], [sourceDir]⟩
  manifest := ⟨1, operations, postActions⟩

/-- A client that installs and stops its own unit, and asks for a marker of another one. -/
def stopOwn : Request :=
  appRequest [.installFile
      { sourcePath := "/srv/app/app.service".toList
        destPath := "/etc/systemd/system/app.service".toList
        mode := requiredMode
        marker := some appMarker },
    .writeMarker ⟨"/etc/systemd/system/sshd.service".toList, appMarker⟩]
    [.daemonReload, .stop "app.service".toList]

/-- A unit that the helper did not install. -/
def foreignUnit : Str := "sshd.service".toList

/-- A client asks for a marker of a unit, and to stop it. -/
def stopForeign : Request :=
  appRequest [.writeMarker ⟨"/etc/systemd/system/sshd.service".toList, appMarker⟩]
    [.stop foreignUnit]

instance (unit : Str) : DecidablePred (InstallCall.Marks unit)
  | .writeMarker _ unit' _ => inferInstanceAs (Decidable (unit' = unit))
  | .resolve _ | .loadPolicy | .readFile _ | .lock | .deadline | .openDir _ | .writeFile _ _ _
  | .pathExists _ | .systemctl _ => isFalse id

/-- A host that has a unit's marker once the helper has written it. -/
def markedHost : Calls → (c : InstallCall) → c.Answer
  | _, .resolve path => .path path
  | _, .loadPolicy => .policy appPolicy
  | _, .readFile _ => .bytes appUnit
  | _, .lock => .taken
  | _, .deadline => false
  | _, .openDir _ => .opened (1, 2)
  | _, .writeFile _ _ _ => .done
  | _, .writeMarker _ _ _ => .done
  | h, .pathExists _ => h.any fun e => e.1.Marks foreignUnit
  | _, .systemctl _ => .exited 0 []

/-- A host with a foreign marker has none of its own. -/
theorem markedHost_ownMarkers (requests : List Request) (h : Calls) (c : InstallCall) :
    OwnMarkers requests foreignUnit h ⟨c, markedHost h c⟩ := by
  intro request _ dest _ he
  cases c with
  | pathExists path =>
    obtain ⟨-, c, ⟨r, hmem⟩, hmarks⟩ : path = dest.1.join (foreignUnit ++ markerSuffix) ∧
        ∃ c, (∃ r, ⟨c, r⟩ ∈ h) ∧ c.Marks foreignUnit := by
      simpa [markedHost] using he
    exact ⟨⟨c, r⟩, hmem, hmarks⟩
  | _ => cases he

instance (unit : Str) : DecidablePred (InstallCall.Stops unit) :=
  fun c => inferInstanceAs (Decidable (c = _ ∨ c = _))

/-- A file was written, of whichever unit. -/
def InstallCall.WritesFile : InstallCall → Bool
  | .writeFile _ _ _ => true
  | _ => false

end Fraisier.Install
