import Fraisier.Lib.JsonRoundTrip
import Fraisier.Socket.Helper

/-!
# Which requests are answered

A helper sends one line of JSON for a request, or none: `serves_iff` says for which bytes and which
outcomes of the command it is one. Whatever is sent, only commands that the helper's unit permits are
run.
-/

namespace Fraisier.Socket

open Fraisier.Lib Unicode Json

/-! ## One line -/

/-- The bytes that were sent. -/
def Handled.wire (h : Handled) : Text := h.sent.flatMap Response.line

/-- Exactly one line was sent, and it is a JSON object. -/
def Handled.Answered (h : Handled) : Prop :=
  ∃ members, h.wire = dumps (.obj members) ++ [chr '\n'] ∧ chr '\n' ∉ dumps (.obj members)

/-- A command that the helper may run. -/
def Helper.Permits : Helper → Command → Prop
  | .systemctl allowedServices, command =>
    command = ⟨[systemctlPath, text "daemon-reload"], none⟩ ∨
      ∃ action ∈ allowedActions, ∃ service ∈ allowedServices,
        command = ⟨[systemctlPath, text action, service.text], none⟩
  | .install allowedCommand, command => command.argv = allowedCommand.map (·.text)

/-- A line that is not blank came. -/
def Asked (received : List ℕ) : Prop := (lineOf received).all isBlank = false

/-- A line that is not blank gets one line of JSON, and only permitted commands are run. -/
def Serves (limits : Limits) (texts : Texts) (helper : Helper) (rejected : Option Text)
    (received : List ℕ) (child : ChildRun) : Prop :=
  (Asked received → (helper.serveConnection limits texts rejected received child).Answered) ∧
    ∀ command ∈ (helper.serveConnection limits texts rejected received child).ran,
      helper.Permits command

/-! ## What is answered -/

/-- A value that `in` accepts on its left, before a set. -/
def Hashable (v : Json) : Prop := ∃ key, v.key = .ok key

/-- The request names a command that the helper may run. -/
inductive Names : Helper → Json → Command → Prop
  | daemonReload {allowedServices : List Argument} {members : List (Text × Json)}
      (haction : getD members "action" (.str []) = .str (text "daemon-reload")) :
      Names (.systemctl allowedServices) (.obj members) ⟨[systemctlPath, text "daemon-reload"], none⟩
  | service {allowedServices : List Argument} {members : List (Text × Json)} {action : String}
      {service : Argument} (hallowed : action ∈ allowedActions) (hreload : action ≠ "daemon-reload")
      (haction : getD members "action" (.str []) = .str (text action))
      (hservice : service ∈ allowedServices) (hnonempty : service.text ≠ [])
      (hnamed : getD members "service" (.str []) = .str service.text) :
      Names (.systemctl allowedServices) (.obj members)
        ⟨[systemctlPath, text action, service.text], none⟩
  | install {allowedCommand : List Argument} {members : List (Text × Json)} {cwd : Text}
      (hnonempty : allowedCommand ≠ [])
      (hcommand : getD members "command" .null = .arr (allowedCommand.map fun a => .str a.text))
      (hcwd : getD members "cwd" .null = .str cwd) (habsolute : startsWith cwd "/" = true) :
      Names (.install allowedCommand) (.obj members) ⟨allowedCommand.map (·.text), some cwd⟩

/-- The fields that are looked up in a set have a hash: the action, and the service of an allowed
action that takes one. -/
def Helper.Hashes : Helper → List (Text × Json) → Prop
  | .systemctl _, members =>
    Hashable (getD members "action" (.str [])) ∧
      ((∃ action ∈ allowedActions, action ≠ "daemon-reload" ∧
        getD members "action" (.str []) = .str (text action)) →
          (getD members "service" (.str [])).truthy = true →
            Hashable (getD members "service" (.str [])))
  | .install _, _ => True

/-- The directory can be handed on, and what the command writes is UTF-8. -/
structure Clean (command : Command) (child : ChildRun) : Prop where
  cwd : command.cwd.all passable = true
  output : ∀ returncode stdout stderr, child = .exited returncode stdout stderr →
    (decode stdout).isSome = true ∧ (decode stderr).isSome = true

/-- The request is an object whose fields have a hash, and a command that it names is clean. -/
structure Sound (helper : Helper) (request : Json) (child : ChildRun) : Prop where
  object : ∃ members, request = .obj members ∧ helper.Hashes members
  clean : ∀ command, Names helper request command → Clean command child

/-- The bytes are malformed, or a request that is sound. -/
inductive Answerable (limits : Limits) (helper : Helper) (received : List ℕ) (child : ChildRun) :
    Prop
  | malformed (h : parse limits (lineOf received) = .malformed)
  | request (v : Json) (h : parse limits (lineOf received) = .value v) (hv : Sound helper v child)

variable {limits : Limits} {texts : Texts} {helper : Helper} {received : List ℕ}
  {child : ChildRun} {command : Command} {request : Json} {rejected : Option Text}

/-! ## The lines -/

/-- The advice can be printed. -/
theorem printable_adviceMembers (advice : Option Text) :
    Printable (dumpsMembers (adviceMember advice)) := by
  cases advice with
  | none => exact printable_text rfl
  | some advice =>
    exact .append (.append (.append (.append (printable_text rfl) (printable_writeString _))
      (printable_text rfl)) (printable_writeString _)) (printable_text rfl)

/-- One more member. -/
theorem printable_member {key : Text} {v : Json} {members : List (Text × Json)}
    (hv : Printable (dumps v)) (hmembers : Printable (dumpsMembers members)) :
    Printable (dumpsMembers ((key, v) :: members)) :=
  .append (.append (.append (.append (printable_text rfl) (printable_writeString key))
    (printable_text rfl)) hv) hmembers

/-- A response has no newline in it. -/
theorem printable_response (r : Response) : Printable (dumps r.json) := by
  have hobject : ∀ {key : Text} {v : Json} {members : List (Text × Json)}, Printable (dumps v) →
      Printable (dumpsMembers members) → Printable (dumps (.obj ((key, v) :: members))) :=
    fun hv hmembers => .append (.append (.cons (by decide)
      ((printable_writeString _).append (printable_text rfl))) hv) hmembers
  have hbool : ∀ b, Printable (dumps (.bool b)) := fun b => by
    cases b <;> exact printable_text rfl
  cases r with
  | error message advice =>
    exact hobject (hbool _) (printable_member (printable_writeString _)
      (printable_adviceMembers advice))
  | ran stdout stderr returncode advice =>
    exact hobject (hbool _) (printable_member (printable_writeString _)
      (printable_member (printable_writeString _) (printable_member (printable_writeInt _)
        (printable_adviceMembers advice))))

/-- One response is one line. -/
theorem answered_of_one {h : Handled} {r : Response} (hone : h.sent = [r]) : h.Answered := by
  obtain ⟨members, hobject⟩ : ∃ members, r.json = .obj members := by cases r <;> exact ⟨_, rfl⟩
  refine ⟨members, ?_, fun hmem => ?_⟩
  · rw [Handled.wire, hone, ← hobject]
    simp [Response.line]
  · have hprintable := printable_response r _ (hobject ▸ hmem)
    exact absurd hprintable.1 (by decide)

/-- What sends nothing does not answer. -/
theorem not_answered_of_none {h : Handled} (hnone : h.sent = []) : ¬h.Answered := by
  rintro ⟨members, hwire, -⟩
  rw [Handled.wire, hnone] at hwire
  simp at hwire

/-! ## One response, or none -/

/-- The handler sends one response when the condition holds, and none otherwise; it runs no command
but the one. -/
structure Handled.Sends (h : Handled) (sound : Prop) (command : Command → Prop) : Prop where
  one : sound → ∃ r, h.sent = [r]
  none : ¬sound → h.sent = []
  ran : ∀ c ∈ h.ran, command c

/-- A line is answered when it is sound. -/
theorem Handled.Sends.answered_iff {h : Handled} {sound : Prop} {commands : Command → Prop}
    (hsends : h.Sends sound commands) : h.Answered ↔ sound := by
  by_cases hsound : sound
  · obtain ⟨r, hr⟩ := hsends.one hsound
    exact iff_of_true (answered_of_one hr) hsound
  · exact iff_of_false (not_answered_of_none (hsends.none hsound)) hsound

/-- A condition may be put in an equivalent form, and the commands in a wider one. -/
theorem Handled.Sends.mono {h : Handled} {sound sound' : Prop} {commands commands' : Command → Prop}
    (hsends : h.Sends sound commands) (hsound : sound ↔ sound')
    (hcommands : ∀ c, commands c → commands' c) : h.Sends sound' commands' :=
  ⟨fun h => hsends.one (hsound.mpr h), fun h => hsends.none fun hs => h (hsound.mp hs),
    fun c hc => hcommands c (hsends.ran c hc)⟩

/-- An error is always sent. -/
theorem sends_error (message : Text) (advice : Option Text) {commands : Command → Prop} :
    (sendError message advice).Sends True commands :=
  ⟨fun _ => ⟨_, rfl⟩, fun h => absurd trivial h, fun _ hc => absurd hc List.not_mem_nil⟩

/-- An exception that is not caught sends nothing. -/
theorem sends_uncaught {commands : Command → Prop} : uncaught.Sends False commands :=
  ⟨False.elim, fun _ => rfl, fun _ hc => absurd hc List.not_mem_nil⟩

/-- A command is answered when it is clean. -/
theorem sends_runCommand (messages : RunMessages) (hargv : command.argv.all passable = true) :
    (runCommand texts messages command child).Sends (Clean command child) (· = command) := by
  unfold runCommand
  rw [hargv, Bool.true_and]
  split
  -- A working directory with a zero byte raises.
  · next hcwd =>
    have hnot : ¬Clean command child := fun hclean => by
      rw [hclean.cwd] at hcwd
      cases hcwd
    exact sends_uncaught.mono (iff_of_false id hnot) fun _ h => h
  · next hcwd =>
    have hcwd : command.cwd.all passable = true := by simpa using hcwd
    have hran : ∀ c ∈ [command], c = command := fun c hc => List.mem_singleton.mp hc
    -- The cases are what becomes of the child.
    cases child with
    | timedOut =>
      exact ⟨fun _ => ⟨_, rfl⟩, fun h => absurd ⟨hcwd, fun _ _ _ h => by cases h⟩ h, hran⟩
    | osError =>
      exact ⟨fun _ => ⟨_, rfl⟩, fun h => absurd ⟨hcwd, fun _ _ _ h => by cases h⟩ h, hran⟩
    | exited returncode stdout stderr =>
      dsimp only
      split
      · next out err hout herr =>
        have hclean : Clean command (.exited returncode stdout stderr) :=
          ⟨hcwd, fun _ _ _ h => by cases h; simp [hout, herr]⟩
        exact ⟨fun _ => ⟨_, rfl⟩, fun h => absurd hclean h, hran⟩
      · next hdecode =>
        have hnot : ¬Clean command (.exited returncode stdout stderr) := fun hclean => by
          obtain ⟨hout, herr⟩ := hclean.output _ _ _ rfl
          obtain ⟨out, hout⟩ := Option.isSome_iff_exists.mp hout
          obtain ⟨err, herr⟩ := Option.isSome_iff_exists.mp herr
          exact hdecode out err hout herr
        exact ⟨fun h => absurd h hnot, fun _ => rfl, hran⟩

/-! ## The systemctl helper -/

/-- A key is a text when the value is. -/
theorem key_eq_str_iff {v : Json} {s : Text} : v.key = .ok (.str s) ↔ v = .str s := by
  cases v <;> simp [Json.key]

/-- The path of systemctl can be passed on. -/
theorem passable_systemctlPath : passable systemctlPath = true := by decide

/-- An action that is allowed can be passed on. -/
theorem passable_action {action : String} (h : action ∈ allowedActions) :
    passable (text action) = true := by
  have hall : ∀ action ∈ allowedActions, passable (text action) = true := by decide
  exact hall action h

/-- The texts of two actions differ. -/
theorem action_inj {action action' : String} (h : action ∈ allowedActions)
    (h' : action' ∈ allowedActions) (heq : text action = text action') : action = action' := by
  have hall : ∀ action ∈ allowedActions, ∀ action' ∈ allowedActions,
      text action = text action' → action = action' := by decide
  exact hall action h action' h' heq

section Service

variable {allowedServices : List Argument} {members : List (Text × Json)} {action : String}

/-- An allowed action of a service is answered when the service has a hash, and a command that is
named is clean. -/
theorem sends_serviceCommand (hallowed : action ∈ allowedActions) (hreload : action ≠ "daemon-reload")
    (haction : getD members "action" (.str []) = .str (text action)) :
    (serviceCommand texts allowedServices (text action) (getD members "service" (.str [])) child).Sends
      (((getD members "service" (.str [])).truthy = true →
          Hashable (getD members "service" (.str []))) ∧
        ∀ command, Names (.systemctl allowedServices) (.obj members) command → Clean command child)
      (Helper.Permits (.systemctl allowedServices)) := by
  -- the only command that can be named is that of the service
  have hnames : ∀ command, Names (.systemctl allowedServices) (.obj members) command →
      ∃ service ∈ allowedServices, service.text ≠ [] ∧
        getD members "service" (.str []) = .str service.text ∧
          command = ⟨[systemctlPath, text action, service.text], none⟩ := by
    intro command hnames
    cases hnames with
    | daemonReload haction' =>
      have heq := Json.str.inj (haction.symm.trans haction')
      exact absurd (action_inj hallowed (by decide) heq) hreload
    | service hallowed' hreload' haction' hservice hnonempty hnamed =>
      have heq := Json.str.inj (haction.symm.trans haction')
      exact ⟨_, hservice, hnonempty, hnamed, by rw [heq]⟩
  unfold serviceCommand
  split
  · next hfalsy =>
    have hfalsy : (getD members "service" (.str [])).truthy = false := by simpa using hfalsy
    refine (sends_error _ none).mono (iff_of_true trivial ⟨fun h => ?_, ?_⟩) fun _ h => h
    · rw [hfalsy] at h
      cases h
    · intro command hcommand
      obtain ⟨service, -, hnonempty, hnamed, -⟩ := hnames command hcommand
      rw [hnamed] at hfalsy
      exact absurd (List.isEmpty_iff.mp (by simpa [Json.truthy] using hfalsy)) hnonempty
  · next htruthy =>
    have htruthy : (getD members "service" (.str [])).truthy = true := by simpa using htruthy
    split
    · next e hkey =>
      refine sends_uncaught.mono (iff_of_false id fun h => ?_) fun _ h => h
      obtain ⟨key, hok⟩ := h.1 htruthy
      rw [hkey] at hok
      cases hok
    · next key hkey =>
      have hhash : Hashable (getD members "service" (.str [])) := ⟨key, hkey⟩
      split
      · next hnone =>
        refine (sends_error _ none).mono (iff_of_true trivial ⟨fun _ => hhash, ?_⟩) fun _ h => h
        intro command hcommand
        obtain ⟨service, hservice, -, hnamed, -⟩ := hnames command hcommand
        have hfound := List.find?_eq_none.mp hnone service hservice
        rw [key_eq_str_iff.mpr hnamed] at hkey
        obtain rfl := Except.ok.inj hkey
        simp at hfound
      · next service hsome =>
        have hservice : service ∈ allowedServices := List.mem_of_find?_eq_some hsome
        have hpassable : [systemctlPath, text action, service.text].all passable = true := by
          simp [passable_systemctlPath, passable_action hallowed, service.passable]
        obtain rfl : key = .str service.text := by simpa using List.find?_some hsome
        have hnamed := key_eq_str_iff.mp hkey
        have hnonempty : service.text ≠ [] := by
          intro hempty
          rw [hnamed, hempty] at htruthy
          cases htruthy
        refine (sends_runCommand systemctlMessages hpassable).mono ⟨fun hclean => ⟨fun _ => hhash, ?_⟩,
          fun h => h.2 _ (.service hallowed hreload haction hservice hnonempty hnamed)⟩ ?_
        · intro command hcommand
          obtain ⟨service', -, -, hnamed', rfl⟩ := hnames command hcommand
          rw [← Json.str.inj (hnamed.symm.trans hnamed')]
          exact hclean
        · rintro _ rfl
          exact .inr ⟨action, hallowed, service, hservice, rfl⟩

end Service

/-- The systemctl helper answers a sound request. -/
theorem sends_systemctlRequest (allowedServices : List Argument) (request : Json) :
    (systemctlRequest texts allowedServices request child).Sends
      (Sound (.systemctl allowedServices) request child)
      (Helper.Permits (.systemctl allowedServices)) := by
  unfold systemctlRequest
  split
  · next e hmembers =>
    refine sends_uncaught.mono (iff_of_false id fun h => ?_) fun _ h => h
    obtain ⟨members, rfl, -⟩ := h.object
    cases hmembers
  · next members hmembers =>
    obtain rfl := members_ok_iff.mp hmembers
    have hsound : Sound (.systemctl allowedServices) (.obj members) child ↔
        Helper.Hashes (.systemctl allowedServices) members ∧
          ∀ command, Names (.systemctl allowedServices) (.obj members) command →
            Clean command child := by
      constructor
      · rintro ⟨⟨members', heq, hhashes⟩, hclean⟩
        obtain rfl := Json.obj.inj heq
        exact ⟨hhashes, hclean⟩
      · exact fun h => ⟨⟨members, rfl, h.1⟩, h.2⟩
    dsimp only
    split
    · next e hkey =>
      refine sends_uncaught.mono (iff_of_false id fun h => ?_) fun _ h => h
      obtain ⟨key, hok⟩ := (hsound.mp h).1.1
      rw [hkey] at hok
      cases hok
    · next key hkey =>
      have hhash : Hashable (getD members "action" (.str [])) := ⟨key, hkey⟩
      split
      · next hnone =>
        -- no allowed action, so nothing is named
        have hno : ∀ action ∈ allowedActions,
            getD members "action" (.str []) ≠ .str (text action) := by
          intro action hallowed haction
          have hfound := List.find?_eq_none.mp hnone action hallowed
          rw [key_eq_str_iff.mpr haction] at hkey
          obtain rfl := Except.ok.inj hkey
          simp at hfound
        refine (sends_error _ none).mono (iff_of_true trivial (hsound.mpr ⟨⟨hhash, ?_⟩, ?_⟩))
          fun _ h => h
        · rintro ⟨action, hallowed, -, haction⟩
          exact absurd haction (hno action hallowed)
        · intro command hcommand
          cases hcommand with
          | daemonReload haction => exact absurd haction (hno _ (by decide))
          | service hallowed _ haction => exact absurd haction (hno _ hallowed)
      · next hsome =>
        obtain rfl : key = .str (text "daemon-reload") := by simpa using List.find?_some hsome
        have haction := key_eq_str_iff.mp hkey
        refine (sends_runCommand systemctlMessages (by decide)).mono ⟨fun hclean => ?_, fun h =>
          (hsound.mp h).2 _ (.daemonReload haction)⟩ ?_
        · refine hsound.mpr ⟨⟨hhash, ?_⟩, ?_⟩
          · rintro ⟨action, hallowed, hreload, haction'⟩
            have heq := Json.str.inj (haction'.symm.trans haction)
            exact absurd (action_inj hallowed (by decide) heq) hreload
          · intro command hcommand
            cases hcommand with
            | daemonReload _ => exact hclean
            | service hallowed hreload haction' =>
              have heq := Json.str.inj (haction'.symm.trans haction)
              exact absurd (action_inj hallowed (by decide) heq) hreload
        · rintro _ rfl
          exact .inl rfl
      · next action hreload hsome =>
        have hallowed := List.mem_of_find?_eq_some hsome
        obtain rfl : key = .str (text action) := by simpa using List.find?_some hsome
        have haction := key_eq_str_iff.mp hkey
        have hreload : action ≠ "daemon-reload" := fun heq => hreload heq
        refine (sends_serviceCommand hallowed hreload haction).mono ?_ fun _ h => h
        rw [hsound]
        constructor
        · exact fun h => ⟨⟨hhash, fun _ => h.1⟩, h.2⟩
        · exact fun h => ⟨h.1.2 ⟨action, hallowed, hreload, haction⟩, h.2⟩

/-! ## The install helper -/

/-- A command is read of a list of texts. -/
theorem strings_eq_some_iff {items : List Json} {command : List Text} :
    strings items = some command ↔ items = command.map .str := by
  induction items generalizing command with
  | nil => cases command <;> simp [strings]
  | cons item items ih =>
    cases item with
    | str s =>
      cases command with
      | nil => simp [strings]
      | cons t command => simp [strings, ih, and_comm]
    | _ => cases command <;> simp [strings]

/-- The install helper answers a sound request. -/
theorem sends_installRequest (allowedCommand : List Argument) (request : Json) :
    (installRequest texts allowedCommand request child).Sends
      (Sound (.install allowedCommand) request child)
      (Helper.Permits (.install allowedCommand)) := by
  unfold installRequest
  split
  · next e hmembers =>
    refine sends_uncaught.mono (iff_of_false id fun h => ?_) fun _ h => h
    obtain ⟨members, rfl, -⟩ := h.object
    cases hmembers
  · next members hmembers =>
    obtain rfl := members_ok_iff.mp hmembers
    have hsound : Sound (.install allowedCommand) (.obj members) child ↔
        ∀ command, Names (.install allowedCommand) (.obj members) command → Clean command child :=
      ⟨fun h => h.clean, fun h => ⟨⟨members, rfl, trivial⟩, h⟩⟩
    -- a refusal, where nothing is named
    have hrefused : ∀ message advice,
        (∀ command, ¬Names (.install allowedCommand) (.obj members) command) →
          (sendError message advice).Sends (Sound (.install allowedCommand) (.obj members) child)
            (Helper.Permits (.install allowedCommand)) := by
      intro message advice hnot
      have hvacuous := hsound.mpr fun command hcommand => absurd hcommand (hnot command)
      exact (sends_error message advice).mono (iff_of_true trivial hvacuous) fun _ h => h
    split
    · next item items hcommand =>
      split
      · next hnone =>
        refine hrefused _ _ fun command hnames => ?_
        cases hnames with
        | install _ hnamed =>
          have heq := Json.arr.inj (hcommand.symm.trans hnamed)
          have hsome : strings (item :: items) = some (allowedCommand.map (·.text)) := by
            rw [strings_eq_some_iff, heq, List.map_map]
            rfl
          rw [hnone] at hsome
          cases hsome
      · next command hsome =>
        rw [strings_eq_some_iff] at hsome
        split
        · next cwd hcwd =>
          split
          · next hrelative =>
            refine hrefused _ _ fun command hnames => ?_
            cases hnames with
            | install _ _ hcwd' habsolute =>
              obtain rfl := Json.str.inj (hcwd.symm.trans hcwd')
              rw [habsolute] at hrelative
              cases hrelative
          · next habsolute =>
            have habsolute : startsWith cwd "/" = true := by simpa using habsolute
            split
            · next hother =>
              refine hrefused _ _ fun command' hnames => hother ?_
              cases hnames with
              | install _ hnamed =>
                have heq := Json.arr.inj (hcommand.symm.trans hnamed)
                rw [hsome] at heq
                refine List.map_injective_iff.mpr (fun _ _ => Json.str.inj) (heq.trans ?_)
                rw [List.map_map]
                rfl
            · next hsame =>
              have hsame : command = allowedCommand.map (·.text) := not_not.mp hsame
              have hpassable : (Command.mk command (some cwd)).argv.all passable = true := by
                rw [hsame]
                simpa using fun a _ => a.passable
              have hnonempty : allowedCommand ≠ [] := by
                rintro rfl
                rw [hsame] at hsome
                cases hsome
              have hnamed : Names (.install allowedCommand) (.obj members) ⟨command, some cwd⟩ := by
                rw [hsame]
                refine .install hnonempty ?_ hcwd habsolute
                rw [hcommand, hsome, hsame, List.map_map]
                rfl
              refine (sends_runCommand (installMessages cwd) hpassable).mono
                ⟨fun hclean => hsound.mpr fun command' hnames => ?_, fun h => h.clean _ hnamed⟩ ?_
              · cases hnames with
                | install _ _ hcwd' =>
                  rw [← Json.str.inj (hcwd.symm.trans hcwd'), ← hsame]
                  exact hclean
              · rintro _ rfl
                exact hsame
        · next hcwd =>
          refine hrefused _ _ fun command hnames => ?_
          cases hnames with
          | install _ _ hcwd' => exact hcwd _ hcwd'
    · next hcommand =>
      refine hrefused _ _ fun command hnames => ?_
      cases hnames with
      | install hnonempty hnamed =>
        obtain ⟨a, allowed, rfl⟩ := List.exists_cons_of_ne_nil hnonempty
        exact hcommand _ _ hnamed

/-! ## Connections -/

/-- Each helper answers a sound request. -/
theorem sends_request (helper : Helper) (request : Json) :
    (helper.request texts request child).Sends (Sound helper request child) helper.Permits := by
  cases helper with
  | systemctl allowedServices => exact sends_systemctlRequest allowedServices request
  | install allowedCommand => exact sends_installRequest allowedCommand request

/-- A line that is not blank is answered when it is answerable. -/
theorem sends_handleConnection (hasked : Asked received) :
    (helper.handleConnection limits texts received child).Sends
      (Answerable limits helper received child) helper.Permits := by
  unfold Helper.handleConnection
  dsimp only
  rw [if_neg (by rw [hasked]; exact Bool.false_ne_true)]
  -- The line is malformed, raises, or holds a request.
  cases hparse : parse limits (lineOf received) with
  | malformed =>
    exact (sends_error _ none).mono (iff_of_true trivial (.malformed hparse)) fun _ h => h
  | raised =>
    refine sends_uncaught.mono (iff_of_false id fun h => ?_) fun _ h => h
    cases h with
    | malformed h => rw [hparse] at h; cases h
    | request v h _ => rw [hparse] at h; cases h
  | value request =>
    refine (sends_request helper request).mono ⟨.request request hparse, fun h => ?_⟩ fun _ h => h
    cases h with
    | malformed h => rw [hparse] at h; cases h
    | request v h hv =>
      rw [hparse] at h
      obtain rfl := Parsed.value.inj h
      exact hv

/-- A helper serves a connection exactly when it refuses the peer, or no line came but a blank one,
or the line is answerable; it runs only permitted commands in any case. -/
theorem serves_iff (limits : Limits) (texts : Texts) (helper : Helper) (rejected : Option Text)
    (received : List ℕ) (child : ChildRun) :
    Serves limits texts helper rejected received child ↔
      (rejected = none → Asked received → Answerable limits helper received child) := by
  -- A peer that is refused is told so, and nobody answers a blank line.
  cases rejected with
  | some reason =>
    have hsends : (helper.serveConnection limits texts (some reason) received child).Sends True
        helper.Permits := sends_error _ none
    refine iff_of_true ⟨fun _ => hsends.answered_iff.mpr trivial, hsends.ran⟩ fun h => ?_
    cases h
  | none =>
    by_cases hasked : Asked received
    · have hsends : (helper.serveConnection limits texts none received child).Sends
          (Answerable limits helper received child) helper.Permits := sends_handleConnection hasked
      constructor
      · exact fun h _ _ => hsends.answered_iff.mp (h.1 hasked)
      · exact fun h => ⟨fun _ => hsends.answered_iff.mpr (h rfl hasked), hsends.ran⟩
    · have hblank : helper.serveConnection limits texts none received child = ⟨[], [], false⟩ :=
        if_pos (by simpa [Asked] using hasked)
      refine iff_of_true ⟨fun h => absurd h hasked, fun command hcommand => ?_⟩ fun _ h =>
        absurd h hasked
      rw [hblank] at hcommand
      exact absurd hcommand List.not_mem_nil

/-- A list for an action has no hash, and closes the connection without a response. -/
theorem list_is_not_answered : ¬∀ limits texts helper rejected received child,
    Serves limits texts helper rejected received child := by
  intro h
  have hserves := h ⟨100, 100⟩ ⟨[], fun _ => []⟩ (.systemctl []) none
    ((text "\x7b\"action\": []\x7d\n").map (·.val)) .timedOut
  have hasked : Asked ((text "\x7b\"action\": []\x7d\n").map (·.val)) := by
    unfold Asked
    decide +kernel
  have hnone : (Helper.serveConnection ⟨100, 100⟩ ⟨[], fun _ => []⟩ (.systemctl []) none
      ((text "\x7b\"action\": []\x7d\n").map (·.val)) .timedOut).sent.isEmpty = true := by
    decide +kernel
  exact not_answered_of_none (List.isEmpty_iff.mp hnone) (hserves.1 hasked)

end Fraisier.Socket
