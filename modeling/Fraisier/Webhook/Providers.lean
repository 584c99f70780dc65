import Fraisier.Lib.JsonValue
import Fraisier.Lib.Occurrences

/-!
# Webhook events of the git providers

`git/base.py` and the `parse_webhook_event` of the four providers, on the headers and the JSON value
of a delivery. A field of an event is the value that the payload has there, `null` for `None`.
-/

namespace Fraisier.Webhook

open Fraisier.Lib Unicode Json

/-- The request's headers, by their names in lower case. -/
abbrev Headers := List (Text × Text)

/-- `headers.get(name)`. -/
def Headers.get (headers : Headers) (name : String) : Option Text := headers.lookup (text name)

/-- `headers.get(a) or headers.get(b) or …`. -/
def Headers.firstOf (headers : Headers) (names : List String) : Option Text :=
  names.findSome? fun name => (headers.get name).filter (· ≠ [])

/-- What a provider raises on a payload of another shape. -/
inductive Raised
  | attributeError | typeError | keyError
  deriving DecidableEq, Repr

/-- `v.get(key, default)`. -/
def get (v : Json) (key : String) (default : Json := .null) : Except Raised Json :=
  match v with
  | .obj members => .ok (getD members key default)
  | _ => .error .attributeError

/-- `{}`. -/
def emptyDict : Json := .obj []

/-! ## Events -/

/-- `WebhookEvent`. -/
structure WebhookEvent where
  eventType : Text
  provider : String
  branch : Json := .null
  commitSha : Json := .null
  sender : Json := .null
  repository : Json := .null
  isPush : Bool := false
  isTag : Bool := false
  isMergeRequest : Bool := false
  isPing : Bool := false

/-- `WebhookEvent.__post_init__`: the flags that the event's type implies. -/
def WebhookEvent.postInit (event : WebhookEvent) : WebhookEvent :=
  { event with
    isPush := event.isPush || event.eventType = text "push"
    isPing := event.isPing || event.eventType = text "ping"
    isMergeRequest := event.isMergeRequest || event.eventType = text "pull_request" ||
      event.eventType = text "merge_request" }

/-- What a provider reads off the part of a payload that the event's type names. -/
structure Details where
  branch : Json := .null
  commitSha : Json := .null
  isPush : Bool := false
  isTag : Bool := false
  isMergeRequest : Bool := false
  isPing : Bool := false

/-- The event of the details. -/
def Details.event (d : Details) (provider : String) (eventType : Text) (sender repository : Json) :
    WebhookEvent :=
  WebhookEvent.postInit { d with provider, eventType, sender, repository }

def heads : Text := text "refs/heads/"

def tags : Text := text "refs/tags/"

/-- The branch that is read off a full ref, and whether it is a tag's. -/
def branchOfRef : Json → Except Raised (Json × Bool)
  | .str ref =>
    if heads.isPrefixOf ref then .ok (.str (eraseAll heads ref), false)
    else if tags.isPrefixOf ref then .ok (.str (eraseAll tags ref), true)
    else .ok (.null, false)
  | _ => .error .attributeError

/-! ## The providers -/

/-- `payload["pull_request"]["head"]`, of GitHub and Gitea. -/
def pullRequestDetails (payload : Json) : Except Raised Details := do
  let prData ← get payload "pull_request" emptyDict
  let head ← get prData "head" emptyDict
  pure { branch := ← get head "ref", commitSha := ← get head "sha", isMergeRequest := true }

namespace GitHubProvider

/-- What stands under the event's type. -/
def details (eventType : Text) (payload : Json) : Except Raised Details :=
  if eventType = text "push" then do
    let (branch, isTag) ← branchOfRef (← get payload "ref" (.str []))
    let after ← get payload "after"
    let commitSha ← if after.truthy then pure after else do
      get (← get payload "head_commit" emptyDict) "id"
    pure { branch, commitSha, isPush := true, isTag }
  else if eventType = text "pull_request" then pullRequestDetails payload
  else if eventType = text "ping" then pure { isPing := true }
  else pure {}

/-- `GitHubProvider.parse_webhook_event`. -/
def parseWebhookEvent (headers : Headers) (payload : Json) : Except Raised WebhookEvent := do
  let eventType := (headers.get "x-github-event").getD (text "unknown")
  let repository ← get (← get payload "repository" emptyDict) "full_name"
  let login ← get (← get payload "sender" emptyDict) "login"
  let sender ← if login.truthy then pure login else do
    get (← get payload "pusher" emptyDict) "name"
  let d ← details eventType payload
  pure (d.event "github" eventType sender repository)

end GitHubProvider

namespace GitLabProvider

/-- What stands under the object's kind. -/
def details (eventType : Text) (objectKind payload : Json) : Except Raised Details :=
  if objectKind.isStr "push" ∨ eventType = text "Push Hook" then do
    let (branch, isTag) ← branchOfRef (← get payload "ref" (.str []))
    let commitSha := (← get payload "after").orElse (← get payload "checkout_sha")
    pure { branch, commitSha, isPush := true, isTag }
  else if objectKind.isStr "tag_push" ∨ eventType = text "Tag Push Hook" then do
    match ← get payload "ref" (.str []) with
    | .str ref =>
      pure { branch := .str (eraseAll tags ref), commitSha := ← get payload "checkout_sha"
             isPush := true, isTag := true }
    | _ => .error .attributeError
  else if objectKind.isStr "merge_request" ∨ eventType = text "Merge Request Hook" then do
    let mr ← get payload "object_attributes" emptyDict
    let lastCommit ← get mr "last_commit" emptyDict
    pure { branch := ← get mr "source_branch", commitSha := ← get lastCommit "id"
           isMergeRequest := true }
  else pure {}

/-- `GitLabProvider.parse_webhook_event`. -/
def parseWebhookEvent (headers : Headers) (payload : Json) : Except Raised WebhookEvent := do
  let eventType := (headers.get "x-gitlab-event").getD (text "unknown")
  let objectKind ← get payload "object_kind" (.str [])
  let repository ← get (← get payload "project" emptyDict) "path_with_namespace"
  let user := (← get payload "user" emptyDict).orElse (← get payload "user_username")
  let sender ← if user.dict?.isSome then get user "username" else pure user
  let d ← details eventType objectKind payload
  pure (d.event "gitlab" eventType sender repository)

end GitLabProvider

namespace GiteaProvider

/-- What stands under the event's type. -/
def details (eventType : Text) (payload : Json) : Except Raised Details :=
  if eventType = text "push" then do
    let (branch, isTag) ← branchOfRef (← get payload "ref" (.str []))
    pure { branch, commitSha := ← get payload "after", isPush := true, isTag }
  else if eventType = text "create" then do
    let isTag := (← get payload "ref_type").isStr "tag"
    pure { branch := ← get payload "ref", isPush := isTag, isTag }
  else if eventType = text "pull_request" then pullRequestDetails payload
  else pure {}

/-- The event's type; the third name is never that of a header in lower case. -/
def eventType (headers : Headers) : Text :=
  (headers.firstOf ["x-gitea-event", "x-gogs-event", "X-GitHub-Event"]).getD (text "unknown")

/-- `GiteaProvider.parse_webhook_event`. -/
def parseWebhookEvent (headers : Headers) (payload : Json) : Except Raised WebhookEvent := do
  let repository ← get (← get payload "repository" emptyDict) "full_name"
  let senderData ← get payload "sender" emptyDict
  let pusherData ← get payload "pusher" emptyDict
  let login ← get senderData "login"
  let sender ← if login.truthy then pure login else do
    let username ← get senderData "username"
    if username.truthy then pure username else get pusherData "username"
  let d ← details (eventType headers) payload
  pure (d.event "gitea" (eventType headers) sender repository)

end GiteaProvider

namespace BitbucketProvider

/-- `changes[0]`, of a value that is true. -/
def firstOf : Json → Except Raised Json
  | .arr (item :: _) => .ok item
  | .str (c :: _) => .ok (.str [c])
  | .obj _ => .error .keyError
  | _ => .error .typeError

/-- What stands under the first change of a push. -/
def pushDetails (payload : Json) : Except Raised Details := do
  let changes ← get (← get payload "push" emptyDict) "changes" (.arr [])
  if changes.truthy then do
    let new ← get (← firstOf changes) "new" emptyDict
    let branchType ← get new "type" (.str (text "branch"))
    let target ← get new "target" emptyDict
    pure { branch := ← get new "name", commitSha := (← get target "hash").orElse .null
           isPush := true, isTag := branchType.isStr "tag" }
  else pure { isPush := true }

/-- What stands under the event's key. -/
def details (eventKey : Text) (payload : Json) : Except Raised Details :=
  if startsWith eventKey "repo:push" ∨
      eventKey = text "unknown" ∧ (payload.dict?.getD []).any (·.1 = text "push") then
    pushDetails payload
  else if startsWith eventKey "pullrequest:" then do
    let source ← get (← get payload "pullrequest" emptyDict) "source" emptyDict
    let branchData ← get source "branch" emptyDict
    let commit ← get source "commit" emptyDict
    pure { branch := ← get branchData "name", commitSha := (← get commit "hash").orElse .null
           isMergeRequest := true }
  else pure {}

/-- `BitbucketProvider.parse_webhook_event`. -/
def parseWebhookEvent (headers : Headers) (payload : Json) : Except Raised WebhookEvent := do
  let eventKey := (headers.get "x-event-key").getD (text "unknown")
  let repository ← get (← get payload "repository" emptyDict) "full_name"
  let actor ← get payload "actor" emptyDict
  let username ← get actor "username"
  let sender ← if username.truthy then pure username else get actor "display_name"
  let d ← details eventKey payload
  pure (d.event "bitbucket" eventKey sender repository)

end BitbucketProvider

/-- The registered providers. -/
inductive Provider
  | github | gitlab | gitea | bitbucket
  deriving DecidableEq, Repr

/-- `provider.parse_webhook_event`. -/
def Provider.parseWebhookEvent : Provider → Headers → Json → Except Raised WebhookEvent
  | .github => GitHubProvider.parseWebhookEvent
  | .gitlab => GitLabProvider.parseWebhookEvent
  | .gitea => GiteaProvider.parseWebhookEvent
  | .bitbucket => BitbucketProvider.parseWebhookEvent

end Fraisier.Webhook
