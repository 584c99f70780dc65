import Mathlib.Data.List.Forall2
import Fraisier.Lib.Fallible
import Fraisier.Webhook.Dispatch

/-!
# Deliveries that deploy what was pushed

What the providers send when refs change, as far as the decoders read it, and in which cases
exactly the mapped branches that a push created or updated are dispatched: `deploys_pushed_iff`.
-/

namespace Fraisier.Webhook

open Fraisier.Lib Unicode Json

/-! ## What happened -/

/-- The kinds of refs. -/
inductive RefKind
  | branch | tag
  deriving DecidableEq, Repr

/-- What a full ref of the kind begins with. -/
def RefKind.start : RefKind → Text
  | .branch => heads
  | .tag => tags

/-- The kind's name in Bitbucket's and Gitea's payloads. -/
def RefKind.word : RefKind → String
  | .branch => "branch"
  | .tag => "tag"

/-- A ref that was created, moved or deleted. -/
structure RefChange where
  kind : RefKind
  name : Text
  /-- The commit that it names now, none when it was deleted. -/
  target : Option Text
  name_ne_nil : name ≠ []
  target_ne_nil : target ≠ some []

/-- The full ref. -/
def RefChange.ref (c : RefChange) : Text := c.kind.start ++ c.name

/-- A branch that was created or updated. -/
def RefChange.Updates (c : RefChange) : Prop := c.kind = .branch ∧ c.target ≠ none

/-- What an event tells of. -/
inductive Happening
  | refs (changes : List RefChange)
  /-- The event of its own that some providers send for a new ref, beside the push. -/
  | created (kind : RefKind) (name : Text)
  | other

/-- The refs that a push changed. -/
def Happening.changes : Happening → List RefChange
  | .refs changes => changes
  | _ => []

/-- The event is a push that created or updated `refs/heads/b`. -/
def Happening.Updates (happened : Happening) (b : Text) : Prop :=
  ∃ c ∈ happened.changes, c.Updates ∧ c.name = b

/-! ## What is sent -/

/-- Who sends. -/
inductive Sender
  | github | gitlab | gitea | bitbucketCloud | bitbucketServer
  deriving DecidableEq, Repr

/-- The provider that decodes it. -/
def Sender.provider : Sender → Provider
  | .github => .github
  | .gitlab => .gitlab
  | .gitea => .gitea
  | .bitbucketCloud | .bitbucketServer => .bitbucket

/-- The value is an object, and so is, along the keys, each member that is there. -/
def Objects : Json → List String → Prop
  | v, [] => ∃ members, v = .obj members
  | v, key :: keys => ∃ w, get v key emptyDict = .ok w ∧ Objects w keys

/-- The hash that stands for no commit. -/
def noCommit : Text := List.replicate 40 (chr '0')

/-- The payload has a push of one ref. -/
structure PushedRef (c : RefChange) (payload : Json) : Prop where
  ref : get payload "ref" (.str []) = .ok (.str c.ref)
  after : get payload "after" = .ok (.str (c.target.getD noCommit))

/-- An item of Bitbucket's list of changes. -/
def ChangeItem (c : RefChange) (item : Json) : Prop :=
  if c.target = none then get item "new" emptyDict = .ok .null
  else ∃ new, get item "new" emptyDict = .ok new ∧
    get new "type" (.str (text "branch")) = .ok (.str (text c.kind.word)) ∧
    get new "name" = .ok (.str c.name) ∧ Objects new ["target"]

/-- What the senders put into headers and payload when something happened. Only what the decoders
read is told. -/
inductive Sends : Sender → Happening → Headers → Json → Prop
  | githubPush {c : RefChange} {headers : Headers} {payload : Json}
      (event : headers.get "x-github-event" = some (text "push"))
      (people : ∀ key ∈ ["repository", "sender", "pusher"], Objects payload [key])
      (pushed : PushedRef c payload) : Sends .github (.refs [c]) headers payload
  | github {happened : Happening} {headers : Headers} {payload : Json} {k : Text}
      (noChange : happened.changes = [])
      (event : headers.get "x-github-event" = some k) (notPush : k ≠ text "push")
      (people : ∀ key ∈ ["repository", "sender", "pusher"], Objects payload [key])
      (pull : k = text "pull_request" → Objects payload ["pull_request", "head"]) :
      Sends .github happened headers payload
  | gitlabPush {c : RefChange} {headers : Headers} {payload : Json}
      (event : headers.get "x-gitlab-event" = some (text "Push Hook") ∨
        headers.get "x-gitlab-event" = some (text "System Hook"))
      (kind : get payload "object_kind" (.str []) = .ok (.str (text "push")))
      (project : Objects payload ["project"])
      (pushed : PushedRef c payload) : Sends .gitlab (.refs [c]) headers payload
  | gitlabTagPush {c : RefChange} {headers : Headers} {payload : Json} (tag : c.kind = .tag)
      (event : headers.get "x-gitlab-event" = some (text "Tag Push Hook") ∨
        headers.get "x-gitlab-event" = some (text "System Hook"))
      (kind : get payload "object_kind" (.str []) = .ok (.str (text "tag_push")))
      (project : Objects payload ["project"])
      (pushed : PushedRef c payload) : Sends .gitlab (.refs [c]) headers payload
  | gitlab {happened : Happening} {headers : Headers} {payload : Json} {k kind : Text}
      (noChange : happened.changes = [])
      (event : headers.get "x-gitlab-event" = some k)
      (notPush : k ≠ text "push" ∧ k ≠ text "Push Hook" ∧ k ≠ text "Tag Push Hook")
      (object : get payload "object_kind" (.str []) = .ok (.str kind))
      (notPushed : kind ≠ text "push" ∧ kind ≠ text "tag_push")
      (project : Objects payload ["project"])
      (merge : Objects payload ["object_attributes", "last_commit"] ∨
        kind ≠ text "merge_request" ∧ k ≠ text "Merge Request Hook") :
      Sends .gitlab happened headers payload
  | giteaPush {c : RefChange} {headers : Headers} {payload : Json}
      (event : GiteaProvider.eventType headers = text "push")
      (people : ∀ key ∈ ["repository", "sender", "pusher"], Objects payload [key])
      (pushed : PushedRef c payload) : Sends .gitea (.refs [c]) headers payload
  | giteaCreate {kind : RefKind} {name : Text} {headers : Headers} {payload : Json}
      (event : GiteaProvider.eventType headers = text "create")
      (people : ∀ key ∈ ["repository", "sender", "pusher"], Objects payload [key])
      (refType : get payload "ref_type" = .ok (.str (text kind.word)))
      (ref : get payload "ref" = .ok (.str name)) :
      Sends .gitea (.created kind name) headers payload
  | gitea {headers : Headers} {payload : Json}
      (notPush : GiteaProvider.eventType headers ≠ text "push")
      (notCreate : GiteaProvider.eventType headers ≠ text "create")
      (people : ∀ key ∈ ["repository", "sender", "pusher"], Objects payload [key])
      (pull : GiteaProvider.eventType headers = text "pull_request" →
        Objects payload ["pull_request", "head"]) : Sends .gitea .other headers payload
  | bitbucketPush {changes : List RefChange} {items : List Json} {headers : Headers}
      {payload push : Json} (event : headers.get "x-event-key" = some (text "repo:push"))
      (people : ∀ key ∈ ["repository", "actor"], Objects payload [key])
      (pushed : get payload "push" emptyDict = .ok push)
      (listed : get push "changes" (.arr []) = .ok (.arr items))
      (each : List.Forall₂ ChangeItem changes items) :
      Sends .bitbucketCloud (.refs changes) headers payload
  | bitbucketServerPush {changes : List RefChange} {headers : Headers} {payload : Json}
      (event : headers.get "x-event-key" = some (text "repo:refs_changed"))
      (people : ∀ key ∈ ["repository", "actor"], Objects payload [key]) :
      Sends .bitbucketServer (.refs changes) headers payload
  | bitbucket {sender : Sender} {happened : Happening} {headers : Headers} {payload : Json}
      {k : Text} (bitbucket : sender = .bitbucketCloud ∨ sender = .bitbucketServer)
      (noChange : happened.changes = []) (event : headers.get "x-event-key" = some k)
      (notPush : startsWith k "repo:push" = false ∧ k ≠ text "unknown" ∧ k ≠ text "push")
      (people : ∀ key ∈ ["repository", "actor"], Objects payload [key])
      (pull : startsWith k "pullrequest:" = true →
        Objects payload ["pullrequest", "source", "branch"] ∧
          Objects payload ["pullrequest", "source", "commit"]) :
      Sends sender happened headers payload

/-! ## What is deployed -/

/-- The event is decoded, and exactly the mapped branches that it updates are dispatched. -/
def DeploysPushed (host : WebhookHost) (sender : Sender) (happened : Happening) (headers : Headers)
    (payload : Json) : Prop :=
  ∃ event, sender.provider.parseWebhookEvent headers payload = .ok event ∧
    ∀ b, Dispatches host event b ↔ happened.Updates b ∧ host.Mapped b

/-- The branch is mapped, and its name is not empty. -/
def WebhookHost.Routed (host : WebhookHost) (b : Text) : Prop := b ≠ [] ∧ host.Mapped b

/-- A changed ref is told apart from the other refs by what is left of its name when the start of
its full ref is removed wherever it occurs: a branch that is updated keeps its name, or is of no
concern, and nothing else is left with the name of a mapped branch. -/
def RefChange.Apart (host : WebhookHost) (c : RefChange) : Prop :=
  (c.Updates ∧ (¬heads <:+: c.name ∨
    ¬host.Routed c.name ∧ ¬host.Routed (eraseAll heads c.name))) ∨
  (¬c.Updates ∧ ¬host.Routed (eraseAll c.kind.start c.name))

/-- When exactly the pushed branches are dispatched. -/
def Apart (host : WebhookHost) : Sender → Happening → Prop
  | .github, happened | .gitlab, happened => ∀ c ∈ happened.changes, c.Apart host
  | .gitea, .created .tag name => ¬host.Routed name
  | .gitea, happened => ∀ c ∈ happened.changes, c.Apart host
  -- the first change is the one that is read, whatever its kind
  | .bitbucketCloud, happened => ∀ c ∈ happened.changes.head?, c.target ≠ none ∧
      ∀ b, host.Routed b → (c.name = b ↔ happened.Updates b)
  -- its pushes are not known
  | .bitbucketServer, happened => ∀ b, happened.Updates b → ¬host.Mapped b

variable {host : WebhookHost} {sender : Sender} {happened : Happening} {headers : Headers}
  {payload v w : Json} {c : RefChange} {key : String}

/-! ## Decoding -/

/-- What is read through a member that is an object. -/
theorem exists_get_of_objects (h : Objects payload [key]) (inner : String) :
    ∃ members, get payload key emptyDict = .ok (.obj members) ∧
      get (.obj members) inner = .ok (getD members inner .null) := by
  obtain ⟨w, hw, members, rfl⟩ := h
  exact ⟨members, hw, rfl⟩

/-- A value that has one member to read can be asked for any other. -/
theorem exists_get {default : Json} (h : get payload key default = .ok w) (key' : String)
    (default' : Json) : ∃ u, get payload key' default' = .ok u := by
  cases payload with
  | obj members => exact ⟨_, rfl⟩
  | _ => cases h

/-- The prefix of a branch is not empty. -/
theorem heads_ne_nil : heads ≠ [] := by decide

/-- The prefix of a tag is not empty. -/
theorem tags_ne_nil : tags ≠ [] := by decide

/-- A tag's reference is no branch's. -/
theorem not_heads_prefix_tags (s : Text) : heads.isPrefixOf (tags ++ s) = false := by
  rw [Bool.eq_false_iff, Ne, List.isPrefixOf_iff_prefix]
  intro h
  obtain ⟨t, ht⟩ := h
  have hfive : (heads ++ t)[5]? = (tags ++ s)[5]? := by rw [ht]
  rw [List.getElem?_append_left (by decide), List.getElem?_append_left (by decide)] at hfive
  exact absurd hfive (by decide)

/-- What is read off the full ref of a change. -/
theorem branchOfRef_ref (c : RefChange) : branchOfRef (.str c.ref) =
    .ok (.str (eraseAll c.kind.start c.name), c.kind == .tag) := by
  unfold branchOfRef RefChange.ref
  -- A tag's ref does not begin as a branch's does.
  cases c.kind with
  | branch =>
    have hprefix : heads.isPrefixOf (heads ++ c.name) = true :=
      List.isPrefixOf_iff_prefix.mpr (List.prefix_append _ _)
    dsimp only [RefKind.start]
    rw [if_pos hprefix, eraseAll_append heads_ne_nil]
    rfl
  | tag =>
    have hprefix : tags.isPrefixOf (tags ++ c.name) = true :=
      List.isPrefixOf_iff_prefix.mpr (List.prefix_append _ _)
    dsimp only [RefKind.start]
    rw [if_neg (by rw [not_heads_prefix_tags]; decide), if_pos hprefix, eraseAll_append tags_ne_nil]
    rfl

/-- The commit that a push names is not empty. -/
theorem PushedRef.exists_after (h : PushedRef c payload) :
    ∃ after, get payload "after" = .ok after ∧ after.truthy = true := by
  refine ⟨_, h.after, ?_⟩
  have hne : c.target.getD noCommit ≠ [] := by
    cases htarget : c.target with
    | none => decide
    | some target =>
      rintro rfl
      exact c.target_ne_nil htarget
  simpa [Json.truthy] using hne

variable {eventType : Text} {d : Details}

/-- The provider decodes a delivery to an event of the details. -/
def Decodes (provider : Provider) (headers : Headers) (payload : Json) (eventType : Text)
    (d : Details) : Prop :=
  ∃ name author repository, provider.parseWebhookEvent headers payload =
    .ok (d.event name eventType author repository)

/-- What is read around the details never fails on what is sent. -/
theorem parse_github (hevent : headers.get "x-github-event" = some eventType)
    (people : ∀ key ∈ ["repository", "sender", "pusher"], Objects payload [key])
    (hdetails : GitHubProvider.details eventType payload = .ok d) :
    Decodes .github headers payload eventType d := by
  obtain ⟨repository, hrepository, hname⟩ :=
    exists_get_of_objects (people "repository" (by simp)) "full_name"
  obtain ⟨sender, hsender, hlogin⟩ := exists_get_of_objects (people "sender" (by simp)) "login"
  obtain ⟨pusher, hpusher, hpushed⟩ := exists_get_of_objects (people "pusher" (by simp)) "name"
  unfold Decodes Provider.parseWebhookEvent GitHubProvider.parseWebhookEvent
  simp only [hevent, hrepository, hname, hsender, hlogin, hpusher, hpushed, hdetails, bind,
    Except.bind, pure, Except.pure, Option.getD_some]
  split <;> exact ⟨_, _, _, rfl⟩

/-- GitLab's delivery is decoded from its fields. -/
theorem parse_gitlab {objectKind : Json} (hevent : headers.get "x-gitlab-event" = some eventType)
    (hkind : get payload "object_kind" (.str []) = .ok objectKind)
    (project : Objects payload ["project"])
    (hdetails : GitLabProvider.details eventType objectKind payload = .ok d) :
    Decodes .gitlab headers payload eventType d := by
  obtain ⟨project, hproject, hpath⟩ := exists_get_of_objects project "path_with_namespace"
  obtain ⟨user, huser⟩ := exists_get hproject "user" emptyDict
  obtain ⟨username, husername⟩ := exists_get hproject "user_username" .null
  unfold Decodes Provider.parseWebhookEvent GitLabProvider.parseWebhookEvent
  simp only [hevent, hkind, hproject, hpath, huser, husername, hdetails, bind, Except.bind, pure,
    Except.pure, Option.getD_some]
  split
  · next hdict =>
    -- a user that is an object has a name, or none
    cases hor : user.orElse username with
    | obj members => exact ⟨_, _, _, rfl⟩
    | _ => rw [hor] at hdict; cases hdict
  · exact ⟨_, _, _, rfl⟩

/-- Gitea's delivery is decoded from its fields. -/
theorem parse_gitea (people : ∀ key ∈ ["repository", "sender", "pusher"], Objects payload [key])
    (hdetails : GiteaProvider.details (GiteaProvider.eventType headers) payload = .ok d) :
    Decodes .gitea headers payload (GiteaProvider.eventType headers) d := by
  obtain ⟨repository, hrepository, hname⟩ :=
    exists_get_of_objects (people "repository" (by simp)) "full_name"
  obtain ⟨sender, hsender, hlogin⟩ := exists_get_of_objects (people "sender" (by simp)) "login"
  obtain ⟨pusher, hpusher, hpushed⟩ := exists_get_of_objects (people "pusher" (by simp)) "username"
  have husername : get (.obj sender) "username" = .ok (getD sender "username" .null) := rfl
  unfold Decodes Provider.parseWebhookEvent GiteaProvider.parseWebhookEvent
  simp only [hrepository, hname, hsender, hlogin, husername, hpusher, hpushed, hdetails, bind,
    Except.bind, pure, Except.pure]
  split
  · exact ⟨_, _, _, rfl⟩
  · split <;> exact ⟨_, _, _, rfl⟩

/-- Bitbucket's delivery is made of its details, its sender and its repository. -/
theorem parse_bitbucket_eq (hevent : headers.get "x-event-key" = some eventType)
    (people : ∀ key ∈ ["repository", "actor"], Objects payload [key]) :
    ∃ sender repository, BitbucketProvider.parseWebhookEvent headers payload =
      (BitbucketProvider.details eventType payload).map
        (·.event "bitbucket" eventType sender repository) := by
  obtain ⟨repository, hrepository, hname⟩ :=
    exists_get_of_objects (people "repository" (by simp)) "full_name"
  obtain ⟨actor, hactor, husername⟩ := exists_get_of_objects (people "actor" (by simp)) "username"
  have hdisplay : get (.obj actor) "display_name" = .ok (getD actor "display_name" .null) := rfl
  unfold BitbucketProvider.parseWebhookEvent
  simp only [hevent, hrepository, hname, hactor, husername, hdisplay, bind, Except.bind, pure,
    Except.pure, Option.getD_some]
  split <;> exact ⟨_, _, rfl⟩

/-- Bitbucket's delivery is decoded from its fields. -/
theorem parse_bitbucket (hevent : headers.get "x-event-key" = some eventType)
    (people : ∀ key ∈ ["repository", "actor"], Objects payload [key])
    (hdetails : BitbucketProvider.details eventType payload = .ok d) :
    Decodes .bitbucket headers payload eventType d := by
  obtain ⟨author, repository, hparse⟩ := parse_bitbucket_eq hevent people
  exact ⟨_, author, repository, by rw [Provider.parseWebhookEvent, hparse, hdetails]; rfl⟩

/-! ## Details -/

/-- What is read of a change as its branch. -/
def RefChange.read (c : RefChange) : Text := eraseAll c.kind.start c.name

/-- The details are of a push of the branch. -/
structure Details.Pushes (d : Details) (branch : Json) : Prop where
  branch : d.branch = branch
  isPush : d.isPush = true
  isPing : d.isPing = false

/-- A push to GitHub names the branch that was pushed. -/
theorem github_push (h : PushedRef c payload) :
    ∃ d, GitHubProvider.details (text "push") payload = .ok d ∧ d.Pushes (.str c.read) := by
  obtain ⟨after, hafter, htrue⟩ := h.exists_after
  unfold GitHubProvider.details
  simp only [if_pos, h.ref, branchOfRef_ref, hafter, htrue, bind, Except.bind, pure, Except.pure]
  exact ⟨_, rfl, rfl, rfl, rfl⟩

/-- A push to GitLab names the branch that was pushed. -/
theorem gitlab_push (h : PushedRef c payload) (eventType : Text) :
    ∃ d, GitLabProvider.details eventType (.str (text "push")) payload = .ok d ∧
      d.Pushes (.str c.read) := by
  obtain ⟨checkout, hcheckout⟩ := exists_get h.ref "checkout_sha" .null
  have hpush : (Json.str (text "push")).isStr "push" = true := isStr_iff.mpr rfl
  unfold GitLabProvider.details
  rw [if_pos (.inl hpush)]
  simp only [h.ref, branchOfRef_ref, h.after, hcheckout, bind, Except.bind, pure, Except.pure]
  exact ⟨_, rfl, rfl, rfl, rfl⟩

/-- The full ref of a tag loses the start of every tag's. -/
theorem gitlab_tagPush (h : PushedRef c payload) (htag : c.kind = .tag)
    (hevent : eventType ≠ text "Push Hook") :
    ∃ d, GitLabProvider.details eventType (.str (text "tag_push")) payload = .ok d ∧
      d.Pushes (.str c.read) := by
  obtain ⟨checkout, hcheckout⟩ := exists_get h.ref "checkout_sha" .null
  -- The event is not that of a push.
  have hnot : ¬((Json.str (text "tag_push")).isStr "push" = true ∨ eventType = text "Push Hook") := by
    rw [isStr_iff]
    rintro (heq | heq)
    · exact absurd (Json.str.inj heq) (by decide)
    · exact hevent heq
  have hread : eraseAll tags c.ref = c.read := by
    unfold RefChange.ref RefChange.read
    rw [htag]
    exact eraseAll_append tags_ne_nil c.name
  unfold GitLabProvider.details
  rw [if_neg hnot, if_pos (.inl (isStr_iff.mpr rfl))]
  simp only [h.ref, hread, hcheckout, bind, Except.bind, pure, Except.pure]
  exact ⟨_, rfl, rfl, rfl, rfl⟩

/-- A push to Gitea names the branch that was pushed. -/
theorem gitea_push (h : PushedRef c payload) :
    ∃ d, GiteaProvider.details (text "push") payload = .ok d ∧ d.Pushes (.str c.read) := by
  unfold GiteaProvider.details
  simp only [if_pos, h.ref, branchOfRef_ref, h.after, bind, Except.bind, pure, Except.pure]
  exact ⟨_, rfl, rfl, rfl, rfl⟩

/-- Gitea's event of its own for a new ref is taken for a push when the ref is a tag. -/
theorem gitea_create {kind : RefKind} {name : Text}
    (hkind : get payload "ref_type" = .ok (.str (text kind.word)))
    (href : get payload "ref" = .ok (.str name)) :
    ∃ d, GiteaProvider.details (text "create") payload = .ok d ∧ d.branch = .str name ∧
      d.isPush = (kind == .tag) ∧ d.isPing = false := by
  have hword : (Json.str (text kind.word)).isStr "tag" = (kind == .tag) := by
    cases kind <;> decide
  unfold GiteaProvider.details
  rw [if_neg (by decide), if_pos rfl]
  simp only [hkind, href, hword, bind, Except.bind, pure, Except.pure]
  exact ⟨_, rfl, rfl, rfl, rfl⟩

/-- The pull requests of GitHub and Gitea. -/
theorem pullRequest_ok (h : Objects payload ["pull_request", "head"]) :
    ∃ d, pullRequestDetails payload = .ok d ∧ d.isPush = false := by
  obtain ⟨pr, hpr, head, hhead, members, rfl⟩ := h
  unfold pullRequestDetails
  simp only [hpr, hhead, bind, Except.bind, pure, Except.pure]
  exact ⟨_, rfl, rfl⟩

/-- Another event of GitHub's is no push. -/
theorem github_other (hpush : eventType ≠ text "push")
    (pull : eventType = text "pull_request" → Objects payload ["pull_request", "head"]) :
    ∃ d, GitHubProvider.details eventType payload = .ok d ∧ d.isPush = false := by
  unfold GitHubProvider.details
  rw [if_neg hpush]
  split
  · next hpull => exact pullRequest_ok (pull hpull)
  · split <;> exact ⟨_, rfl, rfl⟩

/-- Another event of GitLab's is no push. -/
theorem gitlab_other {kind : Text} (hpush : eventType ≠ text "Push Hook")
    (htag : eventType ≠ text "Tag Push Hook") (hkind : kind ≠ text "push")
    (hkindTag : kind ≠ text "tag_push")
    (merge : Objects payload ["object_attributes", "last_commit"] ∨
      kind ≠ text "merge_request" ∧ eventType ≠ text "Merge Request Hook") :
    ∃ d, GitLabProvider.details eventType (.str kind) payload = .ok d ∧ d.isPush = false := by
  have hstr : ∀ {s : String}, kind ≠ text s → ¬(Json.str kind).isStr s = true := fun hne h =>
    hne (Json.str.inj (isStr_iff.mp h))
  unfold GitLabProvider.details
  rw [if_neg (not_or.mpr ⟨hstr hkind, hpush⟩), if_neg (not_or.mpr ⟨hstr hkindTag, htag⟩)]
  -- A merge request has the members that are read of it.
  split
  · next hmerge =>
    obtain ⟨mr, hmr, commit, hcommit, members, rfl⟩ | ⟨hnot, hnotHook⟩ := merge
    · obtain ⟨branch, hbranch⟩ := exists_get hcommit "source_branch" .null
      simp only [hmr, hcommit, hbranch, bind, Except.bind, pure, Except.pure]
      exact ⟨_, rfl, rfl⟩
    · exact absurd hmerge (not_or.mpr ⟨hstr hnot, hnotHook⟩)
  · exact ⟨_, rfl, rfl⟩

/-- Another event of Gitea's is no push. -/
theorem gitea_other (hpush : eventType ≠ text "push") (hcreate : eventType ≠ text "create")
    (pull : eventType = text "pull_request" → Objects payload ["pull_request", "head"]) :
    ∃ d, GiteaProvider.details eventType payload = .ok d ∧ d.isPush = false := by
  unfold GiteaProvider.details
  rw [if_neg hpush, if_neg hcreate]
  split
  · next hpull => exact pullRequest_ok (pull hpull)
  · exact ⟨_, rfl, rfl⟩

/-- An event key that is not of a push, nor of an event without one. -/
theorem bitbucket_other (hpush : startsWith eventType "repo:push" = false)
    (hknown : eventType ≠ text "unknown")
    (pull : startsWith eventType "pullrequest:" = true →
      Objects payload ["pullrequest", "source", "branch"] ∧
        Objects payload ["pullrequest", "source", "commit"]) :
    ∃ d, BitbucketProvider.details eventType payload = .ok d ∧ d.isPush = false := by
  unfold BitbucketProvider.details
  rw [if_neg (by rw [hpush]; simp [hknown])]
  -- A pull request has the members that are read of it.
  split
  · next hpull =>
    obtain ⟨⟨pr, hpr, source, hsource, branch, hbranch, members, rfl⟩,
      pr', hpr', source', hsource', commit, hcommit, members', rfl⟩ := pull hpull
    obtain rfl : pr = pr' := Except.ok.inj (hpr.symm.trans hpr')
    obtain rfl : source = source' := Except.ok.inj (hsource.symm.trans hsource')
    simp only [hpr, hsource, hbranch, hcommit, bind, Except.bind, pure, Except.pure]
    exact ⟨_, rfl, rfl⟩
  · exact ⟨_, rfl, rfl⟩

/-- Bitbucket's pushes are read by their own function. -/
theorem bitbucket_details (payload : Json) :
    BitbucketProvider.details (text "repo:push") payload = BitbucketProvider.pushDetails payload :=
  if_pos (.inl (by decide))

/-- A push without changes. -/
theorem bitbucket_empty {push : Json} (hpush : get payload "push" emptyDict = .ok push)
    (hchanges : get push "changes" (.arr []) = .ok (.arr [])) :
    ∃ d, BitbucketProvider.details (text "repo:push") payload = .ok d ∧ d.branch = .null := by
  rw [bitbucket_details]
  unfold BitbucketProvider.pushDetails
  simp only [hpush, hchanges, bind, Except.bind, pure, Except.pure]
  exact ⟨_, rfl, rfl⟩

section FirstChange

variable {push item : Json} {items : List Json} (hpush : get payload "push" emptyDict = .ok push)
  (hchanges : get push "changes" (.arr []) = .ok (.arr (item :: items)))

include hpush hchanges

/-- A first change that deleted its ref stops the decoding. -/
theorem bitbucket_deleted (hitem : get item "new" emptyDict = .ok .null) :
    BitbucketProvider.details (text "repo:push") payload = .error .attributeError := by
  have htruthy : (Json.arr (item :: items)).truthy = true := rfl
  rw [bitbucket_details]
  unfold BitbucketProvider.pushDetails
  simp only [hpush, hchanges, htruthy, BitbucketProvider.firstOf, hitem, bind, Except.bind, if_true]
  rfl

/-- The name of the first change is read when its ref stands. -/
theorem bitbucket_push (hitem : ChangeItem c item) (htarget : c.target ≠ none) :
    ∃ d, BitbucketProvider.details (text "repo:push") payload = .ok d ∧
      d.Pushes (.str c.name) := by
  have htruthy : (Json.arr (item :: items)).truthy = true := rfl
  unfold ChangeItem at hitem
  rw [if_neg htarget] at hitem
  obtain ⟨new, hnew, htype, hname, target, htarget, members, rfl⟩ := hitem
  have hhash : get (.obj members) "hash" = .ok (getD members "hash" .null) := rfl
  rw [bitbucket_details]
  unfold BitbucketProvider.pushDetails
  simp only [hpush, hchanges, htruthy, BitbucketProvider.firstOf, hnew, htype, hname, htarget, hhash,
    bind, Except.bind, pure, Except.pure, if_true]
  exact ⟨_, rfl, rfl, rfl, rfl⟩

end FirstChange

/-! ## The dispatch of what is decoded -/

/-- A branch that is updated has a name. -/
theorem Happening.Updates.ne_nil {b : Text} (h : happened.Updates b) : b ≠ [] := by
  obtain ⟨c, -, -, rfl⟩ := h
  exact c.name_ne_nil

/-- A decoded event deploys what was pushed when what it dispatches is what was updated. -/
theorem deploysPushed_iff_of_parse {event : WebhookEvent}
    (hparse : sender.provider.parseWebhookEvent headers payload = .ok event) :
    DeploysPushed host sender happened headers payload ↔
      ∀ b, Dispatches host event b ↔ happened.Updates b ∧ host.Mapped b := by
  constructor
  · rintro ⟨event', hparse', h⟩
    obtain rfl : event = event' := Except.ok.inj (hparse.symm.trans hparse')
    exact h
  · exact fun h => ⟨event, hparse, h⟩

section Decoded

variable {name : Text}

/-- A push of a branch deploys what was pushed when its name is that of the branches that were
updated. -/
theorem deploysPushed_iff_of_pushes (sender : Sender)
    (hdecodes : Decodes sender.provider headers payload eventType d)
    (hd : d.Pushes (.str name)) (hping : eventType ≠ text "ping") :
    DeploysPushed host sender happened headers payload ↔
      ∀ b, host.Routed b → (name = b ↔ happened.Updates b) := by
  -- The event is a push of the branch that was read.
  obtain ⟨provider, author, repository, hparse⟩ := hdecodes
  have hbranch : (d.event provider eventType author repository).branch = .str name := hd.branch
  have hnoPing : (d.event provider eventType author repository).isPing = false := by
    simp [Details.event, WebhookEvent.postInit, hd.isPing, hping]
  have hpush : (d.event provider eventType author repository).isPush = true := by
    simp [Details.event, WebhookEvent.postInit, hd.isPush]
  rw [deploysPushed_iff_of_parse hparse]
  simp only [dispatches_iff_of_str hbranch hnoPing, hpush, true_and]
  constructor
  · rintro h b ⟨hb, hmapped⟩
    constructor
    · rintro rfl
      exact ((h name).mp ⟨hb, rfl, hmapped⟩).1
    · exact fun hupdates => ((h b).mpr ⟨hupdates, hmapped⟩).2.1
  · intro h b
    constructor
    · rintro ⟨hname, rfl, hmapped⟩
      exact ⟨(h name ⟨hname, hmapped⟩).mp rfl, hmapped⟩
    · rintro ⟨hupdates, hmapped⟩
      obtain rfl := (h b ⟨hupdates.ne_nil, hmapped⟩).mpr hupdates
      exact ⟨hupdates.ne_nil, rfl, hmapped⟩

/-- What is no push, or has no branch, deploys nothing. -/
theorem deploysPushed_iff_of_other (sender : Sender)
    (hdecodes : Decodes sender.provider headers payload eventType d)
    (hd : d.isPush = false ∧ eventType ≠ text "push" ∨ d.branch = .null) :
    DeploysPushed host sender happened headers payload ↔
      ∀ b, happened.Updates b → ¬host.Mapped b := by
  obtain ⟨provider, author, repository, hparse⟩ := hdecodes
  have hnone : ∀ b, ¬Dispatches host (d.event provider eventType author repository) b := by
    intro b
    obtain ⟨hpush, hevent⟩ | hbranch := hd
    · refine not_dispatches (.inl ?_)
      simp [Details.event, WebhookEvent.postInit, hpush, hevent]
    · exact not_dispatches (.inr hbranch)
  rw [deploysPushed_iff_of_parse hparse]
  simp only [hnone, false_iff, not_and]

end Decoded

/-- The branch that is read of a change is that of the branch it updates, if it does, exactly when
the change is told apart. -/
theorem reads_updated_iff : (∀ b, host.Routed b → (c.read = b ↔ (Happening.refs [c]).Updates b)) ↔
    c.Apart host := by
  have hupdates : ∀ b, (Happening.refs [c]).Updates b ↔ c.Updates ∧ c.name = b := by
    intro b
    simp [Happening.Updates, Happening.changes]
  simp only [hupdates]
  unfold RefChange.Apart
  -- The change updates a branch, or is of something else.
  by_cases hc : c.Updates
  · have hread : c.read = eraseAll heads c.name := by
      unfold RefChange.read
      rw [hc.1]
      rfl
    simp only [hc, true_and, not_true_eq_false, false_and, or_false, hread]
    rw [← eraseAll_eq_self_iff heads_ne_nil]
    constructor
    · intro h
      refine or_iff_not_imp_left.mpr fun hne => ⟨fun hrouted => hne ?_, fun hrouted => hne ?_⟩
      · exact (h _ hrouted).mpr rfl
      · exact ((h _ hrouted).mp rfl).symm
    · rintro (heq | ⟨hname, herased⟩) b hrouted
      · rw [heq]
      · exact ⟨fun heq => absurd (heq ▸ hrouted) herased, fun heq => absurd (heq ▸ hrouted) hname⟩
  · simp only [hc, false_and, not_false_eq_true, true_and, false_or, iff_false]
    constructor
    · exact fun h hrouted => h _ hrouted rfl
    · rintro h b hrouted rfl
      exact h hrouted

/-- An event without changed refs updates no branch. -/
theorem Happening.not_updates (h : happened.changes = []) (b : Text) : ¬happened.Updates b := by
  rintro ⟨c, hc, -⟩
  rw [h] at hc
  exact List.not_mem_nil hc

/-- What the providers send deploys exactly the mapped branches that were created or updated when
the changed refs are told apart. -/
theorem deploys_pushed_iff (host : WebhookHost)
    (h : Sends sender happened headers payload) :
    DeploysPushed host sender happened headers payload ↔ Apart host sender happened := by
  -- A delivery of one change is told apart when the change is.
  have hone : ∀ c : RefChange, (∀ c' ∈ (Happening.refs [c]).changes, c'.Apart host) ↔ c.Apart host := by
    intro c
    exact List.forall_mem_singleton
  -- A delivery without changes deploys nothing.
  have hquiet : ∀ {happened : Happening}, happened.changes = [] →
      ∀ b, happened.Updates b → ¬host.Mapped b :=
    fun hchanges b hupdates => absurd hupdates (Happening.not_updates hchanges b)
  have hnoChange : ∀ {happened : Happening}, happened.changes = [] →
      ∀ c ∈ happened.changes, c.Apart host := by
    intro happened hchanges c hc
    rw [hchanges] at hc
    exact absurd hc List.not_mem_nil
  -- The cases are what the providers send.
  cases h with
  | @githubPush c _ _ event people pushed =>
    obtain ⟨d, hd, hpushes⟩ := github_push pushed
    have hdecodes := parse_github event people hd
    rw [deploysPushed_iff_of_pushes .github hdecodes hpushes (by decide), reads_updated_iff]
    exact (hone c).symm
  | github noChange event notPush people pull =>
    obtain ⟨d, hd, hpush⟩ := github_other notPush pull
    have hdecodes := parse_github event people hd
    rw [deploysPushed_iff_of_other .github hdecodes (.inl ⟨hpush, notPush⟩)]
    exact iff_of_true (hquiet noChange) (hnoChange noChange)
  | @gitlabPush c _ _ event kind project pushed =>
    obtain ⟨eventType, hevent, hping⟩ : ∃ k, headers.get "x-gitlab-event" = some k ∧
        k ≠ text "ping" := by
      obtain event | event := event
      · exact ⟨_, event, by decide⟩
      · exact ⟨_, event, by decide⟩
    obtain ⟨d, hd, hpushes⟩ := gitlab_push pushed eventType
    have hdecodes := parse_gitlab hevent kind project hd
    rw [deploysPushed_iff_of_pushes .gitlab hdecodes hpushes hping, reads_updated_iff]
    exact (hone c).symm
  | @gitlabTagPush c _ _ tag event kind project pushed =>
    obtain ⟨eventType, hevent, hping, hhook⟩ : ∃ k, headers.get "x-gitlab-event" = some k ∧
        k ≠ text "ping" ∧ k ≠ text "Push Hook" := by
      obtain event | event := event
      · exact ⟨_, event, by decide, by decide⟩
      · exact ⟨_, event, by decide, by decide⟩
    obtain ⟨d, hd, hpushes⟩ := gitlab_tagPush pushed tag hhook
    have hdecodes := parse_gitlab hevent kind project hd
    rw [deploysPushed_iff_of_pushes .gitlab hdecodes hpushes hping, reads_updated_iff]
    exact (hone c).symm
  | gitlab noChange event notPush object notPushed project merge =>
    obtain ⟨d, hd, hpush⟩ := gitlab_other notPush.2.1 notPush.2.2 notPushed.1 notPushed.2 merge
    have hdecodes := parse_gitlab event object project hd
    rw [deploysPushed_iff_of_other .gitlab hdecodes (.inl ⟨hpush, notPush.1⟩)]
    exact iff_of_true (hquiet noChange) (hnoChange noChange)
  | @giteaPush c _ _ event people pushed =>
    obtain ⟨d, hd, hpushes⟩ := gitea_push pushed
    have hdecodes := parse_gitea people (event ▸ hd)
    rw [deploysPushed_iff_of_pushes .gitea hdecodes hpushes (by rw [event]; decide), reads_updated_iff]
    exact (hone c).symm
  | @giteaCreate kind name _ _ event people refType ref =>
    obtain ⟨d, hd, hbranch, hpush, hping⟩ := gitea_create refType ref
    have hdecodes := parse_gitea people (event ▸ hd)
    cases kind with
    | branch =>
      rw [deploysPushed_iff_of_other .gitea hdecodes (.inl ⟨hpush, by rw [event]; decide⟩)]
      exact iff_of_true (hquiet rfl) (hnoChange rfl)
    | tag =>
      rw [deploysPushed_iff_of_pushes .gitea hdecodes ⟨hbranch, hpush, hping⟩ (by rw [event]; decide)]
      have hnone : ∀ b, ¬(Happening.created .tag name).Updates b := Happening.not_updates rfl
      simp only [hnone, iff_false]
      constructor
      · exact fun h hrouted => h _ hrouted rfl
      · rintro h b hrouted rfl
        exact h hrouted
  | gitea notPush notCreate people pull =>
    obtain ⟨d, hd, hpush⟩ := gitea_other notPush notCreate pull
    have hdecodes := parse_gitea people hd
    rw [deploysPushed_iff_of_other .gitea hdecodes (.inl ⟨hpush, notPush⟩)]
    exact iff_of_true (hquiet rfl) (hnoChange rfl)
  | @bitbucketPush changes items _ _ push event people pushed listed each =>
    cases each with
    | nil =>
      obtain ⟨d, hd, hbranch⟩ := bitbucket_empty pushed listed
      have hdecodes := parse_bitbucket event people hd
      rw [deploysPushed_iff_of_other .bitbucketCloud hdecodes (.inr hbranch)]
      exact iff_of_true (hquiet rfl) (fun c hc => by cases hc)
    | @cons c item changes items hitem each =>
      have hhead : Apart host .bitbucketCloud (.refs (c :: changes)) ↔ c.target ≠ none ∧
          ∀ b, host.Routed b → (c.name = b ↔ (Happening.refs (c :: changes)).Updates b) := by
        constructor
        · exact fun h => h c rfl
        · rintro h c' hc'
          obtain rfl : c = c' := Option.some.inj hc'
          exact h
      rw [hhead]
      by_cases htarget : c.target = none
      · have hdeleted : get item "new" emptyDict = .ok .null := by
          unfold ChangeItem at hitem
          rwa [if_pos htarget] at hitem
        obtain ⟨author, repository, hparse⟩ := parse_bitbucket_eq event people
        rw [bitbucket_deleted pushed listed hdeleted] at hparse
        refine iff_of_false ?_ fun h => h.1 htarget
        rintro ⟨event, hevent, -⟩
        cases hparse.symm.trans hevent
      · obtain ⟨d, hd, hpushes⟩ := bitbucket_push pushed listed hitem htarget
        have hdecodes := parse_bitbucket event people hd
        rw [deploysPushed_iff_of_pushes .bitbucketCloud hdecodes hpushes (by decide)]
        exact ⟨fun h => ⟨htarget, h⟩, fun h => h.2⟩
  | bitbucketServerPush event people =>
    have hkey : ¬startsWith (text "repo:refs_changed") "pullrequest:" = true := by decide
    obtain ⟨d, hd, hpush⟩ : ∃ d, BitbucketProvider.details (text "repo:refs_changed") payload = .ok d ∧
        d.isPush = false := bitbucket_other (by decide) (by decide) fun h => absurd h hkey
    have hdecodes := parse_bitbucket event people hd
    exact deploysPushed_iff_of_other .bitbucketServer hdecodes (.inl ⟨hpush, by decide⟩)
  | bitbucket bitbucket noChange event notPush people pull =>
    obtain ⟨d, hd, hpush⟩ := bitbucket_other notPush.1 notPush.2.1 pull
    have hdecodes := parse_bitbucket event people hd
    obtain rfl | rfl := bitbucket
    · rw [deploysPushed_iff_of_other .bitbucketCloud hdecodes (.inl ⟨hpush, notPush.2.2⟩)]
      refine iff_of_true (hquiet noChange) (fun c hc => ?_)
      rw [noChange] at hc
      cases hc
    · exact deploysPushed_iff_of_other .bitbucketServer hdecodes (.inl ⟨hpush, notPush.2.2⟩)

/-- A host that deploys `main`. -/
def mainHost : WebhookHost where
  config := some {
    branchMapping := fun branch => if branch = .str (text "main") then
      [{ fraise := text "api", environment := text "production" }] else []
    getFraiseEnvironment := fun _ _ => true }
  draining := false
  locked _ := false

def pushHeaders : Headers := [(text "x-github-event", text "push")]

def pushPayload (c : RefChange) : Json :=
  .obj [(text "ref", .str c.ref), (text "after", .str (c.target.getD noCommit))]

/-- A ref of the kind that is named `main`. -/
def namedMain (kind : RefKind) : RefChange where
  kind := kind
  name := text "main"
  target := some (text "1f")
  name_ne_nil := by decide
  target_ne_nil := by decide

/-- GitHub sends the sample payload for a push. -/
theorem sends_pushPayload (c : RefChange) :
    Sends .github (.refs [c]) pushHeaders (pushPayload c) := by
  refine .githubPush (by decide) ?_ ⟨rfl, rfl⟩
  intro key hkey
  simp only [List.mem_cons, List.not_mem_nil, or_false] at hkey
  obtain rfl | rfl | rfl := hkey <;> exact ⟨emptyDict, rfl, [], rfl⟩

/-- The sample host routes `main`. -/
theorem mainHost_routed : mainHost.Routed (text "main") := ⟨by decide, _, rfl, by decide⟩

/-- The push of the branch deploys it. -/
theorem main_is_deployed : DeploysPushed mainHost .github (.refs [namedMain .branch]) pushHeaders
    (pushPayload (namedMain .branch)) :=
  (deploys_pushed_iff mainHost (sends_pushPayload _)).mpr fun c hc => by
    obtain rfl := List.mem_singleton.mp hc
    exact .inl ⟨⟨rfl, by decide⟩, .inl (by decide)⟩

/-- The push of a tag that is named like it does, too. -/
theorem tag_is_deployed : ¬∀ host sender happened headers payload,
    Sends sender happened headers payload → DeploysPushed host sender happened headers payload := by
  intro h
  obtain ⟨event, hparse, hdispatches⟩ := h mainHost _ _ _ _ (sends_pushPayload (namedMain .tag))
  have hevent : event = ⟨text "push", "github", .str (text "main"), .str (text "1f"), .null, .null,
      true, true, false, false⟩ := by
    refine (Except.ok.inj (hparse.symm.trans ?_))
    rfl
  have hdispatch : Dispatches mainHost event (text "main") := by
    have hbranch : event.branch = .str (text "main") := by rw [hevent]
    rw [dispatches_iff_of_str hbranch (by rw [hevent])]
    exact ⟨by rw [hevent], by decide, rfl, mainHost_routed.2⟩
  obtain ⟨⟨c, hc, hupdates, -⟩, -⟩ := (hdispatches _).mp hdispatch
  obtain rfl := List.mem_singleton.mp hc
  cases hupdates.1

end Fraisier.Webhook
