import Mathlib
import Fraisier.Lib.Fallible
import Fraisier.Lib.Lookup
import Fraisier.Webhook.Providers

/-!
# Signatures of deliveries

`_collect_webhook_secrets` and `_verify_signature` of `webhook.py`, with the check of each provider.
A secret may come from the environment or from the provider's section of `fraises.yaml`, which goes
over the former: `verifies_iff` says for which configurations and deliveries a delivery is accepted
exactly when one of the configured secrets signed it.
-/

namespace Fraisier.Webhook

open Fraisier.Lib Unicode Json Fallible

/-! ## Configuration -/

/-- A value in a provider's section. -/
inductive Setting
  | null
  | str (s : Text)
  /-- `!envvar`. -/
  | lazy (name : Text)
  /-- A value of another type, and whether it counts as true. -/
  | other (truthy : Bool)
  deriving DecidableEq

/-- A value that an `!envvar` has been replaced in. -/
inductive Resolved
  | null
  | str (s : Text)
  | other (truthy : Bool)
  deriving DecidableEq

/-- `bool(v)`. -/
def Resolved.truthy : Resolved → Bool
  | .null => false
  | .str s => !s.isEmpty
  | .other b => b

/-- `v or default`. -/
def Resolved.orElse (v default : Resolved) : Resolved := if v.truthy then v else default

/-- A section of `git:`, by its keys. -/
structure GitSection where
  entries : List (Text × Setting)
  nodup : (entries.map (·.1)).Nodup

/-- What `get_config().get_git_provider_config()` gives. -/
inductive GitConfig
  | fileNotFound
  /-- A `FrameworkError`. -/
  | unloadable
  | loaded (sections : Text → GitSection)

/-- `git_config.get(provider_name, {})`. -/
def GitConfig.section : GitConfig → Text → GitSection
  | .loaded sections, name => sections name
  | _, _ => ⟨[], List.nodup_nil⟩

/-- `os.environ`. -/
abbrev Environ := List (Text × Text)

/-- `LazyEnv.resolve`, where it is needed; a variable that is not set is a `ConfigurationError`. -/
def Setting.resolve (environ : Environ) : Setting → Option Resolved
  | .null => some .null
  | .str s => some (.str s)
  | .lazy name => (environ.lookup name).map .str
  | .other b => some (.other b)

/-- `_resolve_provider_config`, when each value can be resolved. -/
def resolveProviderConfig (environ : Environ) (raw : List (Text × Setting)) :
    Option (List (Text × Resolved)) :=
  if raw.all fun entry => (entry.2.resolve environ).isSome then
    some (raw.map fun entry => (entry.1, (entry.2.resolve environ).getD .null))
  else none

/-- A secret of the environment as a setting. -/
def secretSetting : Option Text → Setting
  | none => .null
  | some s => .str s

/-- `{"webhook_secret": secret, **section}`. -/
def withSecret (secret : Option Text) (config : GitSection) : List (Text × Setting) :=
  (text "webhook_secret",
    (config.entries.lookup (text "webhook_secret")).getD (secretSetting secret)) ::
      config.entries.filter (·.1 ≠ text "webhook_secret")

/-! ## Secrets of the environment -/

def minSecretLength : ℕ := 32

def secretVariable : Text := text "FRAISIER_WEBHOOK_SECRET"

/-- `_add`: a secret that is too short is left out, and so is one that was added before. -/
def addSecret (secrets : List Text) (secret : Text) : List Text :=
  if secret.length < minSecretLength then secrets
  else if secret ∈ secrets then secrets
  else secrets ++ [secret]

/-- `_collect_webhook_secrets`. -/
def collectWebhookSecrets (environ : Environ) : List Text :=
  let base := (environ.lookup secretVariable).toList
  let sorted := environ.mergeSort fun a b => a.1 ≤ b.1
  let perEnvironment := (sorted.filter fun (key, _) =>
    startsWith key "FRAISIER_WEBHOOK_SECRET_").map (·.2)
  (base ++ perEnvironment).foldl addSecret []

/-! ## The check of a provider -/

/-- Exceptions that are no HTTP errors. -/
inductive PyError
  | typeError | attributeError | unicodeEncodeError
  deriving DecidableEq, Repr

/-- `s.isascii()`. -/
def isAscii (s : Text) : Bool := s.all (·.val < 0x80)

/-- `hmac.compare_digest` of two texts. -/
def compareDigest (a b : Text) : Except PyError Bool :=
  if isAscii a && isAscii b then .ok (a = b) else .error .typeError

/-- `s.encode()` is possible: the text has no surrogates. -/
def encodable (s : Text) : Bool := s.all fun c => !isHigh c.val && !isLow c.val

/-- `hmac.new(secret, payload, hashlib.sha256)`, by the digits of the digest in hexadecimal. -/
abbrev Hmac := Text → List ℕ → List (Fin 16)

/-- `hexdigest()`. -/
def hexdigest (digest : List (Fin 16)) : Text := digest.map fun d : Fin 16 => hexChar d.val

/-- `hmac.new(self.webhook_secret.encode(), payload, hashlib.sha256).hexdigest()`. -/
def expectedDigest (hmac : Hmac) (secret : Resolved) (payload : List ℕ) : Except PyError Text :=
  match secret with
  | .str s => if encodable s then .ok (hexdigest (hmac s payload)) else .error .unicodeEncodeError
  | _ => .error .attributeError

/-- `"sha256="`. -/
def sha256Prefix : Text := text "sha256="

/-- `signature.removeprefix("sha256=")`. -/
def removeSha256 (signature : Text) : Text :=
  if sha256Prefix.isPrefixOf signature then signature.drop sha256Prefix.length else signature

/-- The header that the provider's signature or token is read from. -/
def Provider.signature (headers : Headers) : Provider → Option Text
  | .github => headers.firstOf ["x-hub-signature-256"]
  | .gitlab => headers.firstOf ["x-gitlab-token"]
  | .gitea => headers.firstOf ["x-gitea-signature", "x-gogs-signature", "x-hub-signature-256"]
  | .bitbucket => headers.firstOf ["x-hub-signature"]

/-- The provider's `_verify_signature`, on a signature that is not empty. -/
def Provider.checkSignature (hmac : Hmac) (secret : Resolved) (payload : List ℕ) (signature : Text) :
    Provider → Except PyError Bool
  | .github => do
    let digest ← expectedDigest hmac secret payload
    compareDigest (sha256Prefix ++ digest) signature
  | .gitlab =>
    match secret with
    | .str s => compareDigest s signature
    | _ => .error .typeError
  | .gitea | .bitbucket => do
    let digest ← expectedDigest hmac secret payload
    compareDigest digest (removeSha256 signature)

/-- The name that the provider knows its secret by, beside `webhook_secret`. -/
def Provider.secretAlias : Provider → Text
  | .gitlab => text "secret_token"
  | _ => text "secret"

/-- `self.webhook_secret`. -/
def Provider.webhookSecret (config : List (Text × Resolved)) (provider : Provider) : Resolved :=
  ((config.lookup (text "webhook_secret")).getD .null).orElse
    ((config.lookup provider.secretAlias).getD .null)

/-- `verify_webhook_signature`, with the provider's secret. -/
def Provider.verifyWebhookSignature (hmac : Hmac) (provider : Provider) (secret : Resolved)
    (payload : List ℕ) (headers : Headers) : Except PyError Bool :=
  if secret.truthy then
    match provider.signature headers with
    | none => .ok false
    | some signature => provider.checkSignature hmac secret payload signature
  else .ok false

/-- `provider.name`. -/
def Provider.name : Provider → String
  | .github => "github"
  | .gitlab => "gitlab"
  | .gitea => "gitea"
  | .bitbucket => "bitbucket"

/-- The registry's provider of a name. -/
def Provider.ofName (name : Text) : Option Provider :=
  [Provider.github, .gitlab, .gitea, .bitbucket].find? fun provider => text provider.name = name

/-! ## The check of a delivery -/

/-- `_structured_error`. -/
structure StructuredError where
  statusCode : ℕ
  errorType : String
  message : Text
  deriving DecidableEq

/-- `_RECOVERY_HINTS`. -/
def recoveryHints : List (String × String) :=
  [("authentication_error", "Check your webhook secret or deployment token."),
    ("validation_error", "Check the request payload and provider configuration."),
    ("configuration_error", "The host's fraises.yaml or its environment is incomplete; " ++
      "the journal names what is missing."),
    ("not_found", "Verify the fraise name and that a status file exists."),
    ("service_unavailable", "Self-upgrade in progress. Retry after the indicated delay.")]

/-- The hint in the error's body. -/
def StructuredError.recoveryHint (e : StructuredError) : String :=
  (recoveryHints.lookup e.errorType).getD ""

def unloadableConfig : StructuredError :=
  ⟨500, "configuration_error", text "this host's fraises.yaml cannot be loaded — see the journal"⟩

def unresolvableSecret : StructuredError :=
  ⟨500, "configuration_error",
    text "webhook secret is not configured on this host — see the journal"⟩

/-- The `ValueError` of `get_provider`. -/
def unknownProvider (name : Text) : StructuredError :=
  ⟨400, "validation_error", text "Unknown Git provider: '" ++ name ++
    text "'. Available providers: github, gitlab, gitea, bitbucket"⟩

def invalidSignature : StructuredError :=
  ⟨401, "authentication_error", text "Invalid webhook signature"⟩

/-- What ends a request. -/
inductive Stop
  | http (e : StructuredError)
  /-- Any other exception. -/
  | raised (e : PyError)
  deriving DecidableEq

/-- The body of the loop over the candidates. -/
def trySecret (hmac : Hmac) (environ : Environ) (config : GitSection) (providerName : Text)
    (body : List ℕ) (headers : Headers) (secret : Option Text) : Except Stop Bool :=
  match resolveProviderConfig environ (withSecret secret config) with
  | none => .error (.http unresolvableSecret)
  | some resolved =>
    match Provider.ofName providerName with
    | none => .error (.http (unknownProvider providerName))
    | some provider =>
      (provider.verifyWebhookSignature hmac (provider.webhookSecret resolved) body headers).mapError
        .raised

/-- `secrets or [None]`. -/
def candidates (environ : Environ) : List (Option Text) :=
  match collectWebhookSecrets environ with
  | [] => [none]
  | secrets => secrets.map some

/-- `_verify_signature`. -/
def verifySignature (hmac : Hmac) (environ : Environ) (gitConfig : GitConfig) (providerName : Text)
    (body : List ℕ) (headers : Headers) : Except Stop Unit :=
  match gitConfig with
  | .unloadable => .error (.http unloadableConfig)
  | _ => do
    let found ← (candidates environ).anyM
      (trySecret hmac environ (gitConfig.section providerName) providerName body headers)
    if found then pure () else .error (.http invalidSignature)

/-! ## What a delivery should be checked against -/

/-- The secrets of the environment that are long enough. -/
def EnvSecret (environ : Environ) (s : Text) : Prop :=
  (environ.lookup secretVariable = some s ∨
    ∃ key, (key, s) ∈ environ ∧ startsWith key "FRAISIER_WEBHOOK_SECRET_" = true) ∧
      minSecretLength ≤ s.length

/-- What the section has under a key. -/
def GitSection.value (environ : Environ) (config : GitSection) (key : Text) : Resolved :=
  ((config.entries.lookup key).bind (Setting.resolve environ)).getD .null

/-- The provider's secret in its section. -/
def GitSection.secret (environ : Environ) (config : GitSection) (provider : Provider) : Resolved :=
  (config.value environ (text "webhook_secret")).orElse (config.value environ provider.secretAlias)

/-- A secret that is configured for the provider. -/
def ConfiguredSecret (environ : Environ) (config : GitSection) (provider : Provider) (s : Text) :
    Prop :=
  EnvSecret environ s ∨ config.secret environ provider = .str s

/-- The secret gives the body the signature; at GitLab the token is the secret itself. -/
def Provider.Signs (hmac : Hmac) (body : List ℕ) (signature s : Text) : Provider → Prop
  | .github => encodable s = true ∧ signature = sha256Prefix ++ hexdigest (hmac s body)
  | .gitlab => signature = s
  | .gitea | .bitbucket => encodable s = true ∧ removeSha256 signature = hexdigest (hmac s body)

/-- The signature or the token of the delivery is valid for the body under the secret. -/
def Provider.Valid (hmac : Hmac) (provider : Provider) (body : List ℕ) (headers : Headers)
    (s : Text) : Prop :=
  s ≠ [] ∧ ∃ signature, provider.signature headers = some signature ∧
    provider.Signs hmac body signature s

/-- A delivery is accepted exactly when a configured secret signed it, and is refused with a
structured error otherwise. -/
structure Verifies (hmac : Hmac) (environ : Environ) (gitConfig : GitConfig) (provider : Provider)
    (body : List ℕ) (headers : Headers) : Prop where
  accepted : verifySignature hmac environ gitConfig (text provider.name) body headers = .ok () ↔
    ∃ s, ConfiguredSecret environ (gitConfig.section (text provider.name)) provider s ∧
      provider.Valid hmac body headers s
  refused : ∀ e, verifySignature hmac environ gitConfig (text provider.name) body headers ≠
    .error (.raised e)

/-! ## When it is -/

/-- Every `!envvar` of the section is set. -/
def GitSection.Resolvable (environ : Environ) (config : GitSection) : Prop :=
  ∀ entry ∈ config.entries, (entry.2.resolve environ).isSome = true

/-- The secrets in force: a section that sets `webhook_secret` goes over the environment, and the
provider's other name for it counts when there is nothing else. -/
def inForce (environ : Environ) (config : GitSection) (provider : Provider) : List Resolved :=
  if (config.entries.lookup (text "webhook_secret")).isSome ∨ collectWebhookSecrets environ = [] then
    [config.secret environ provider]
  else (collectWebhookSecrets environ).map .str

/-- The secret is of the characters that the provider's check takes. -/
def Provider.Takes (s : Text) : Provider → Prop
  | .gitlab => isAscii s = true
  | _ => encodable s = true

/-- The secret can be compared with the delivery's signature: there is no signature, or both are
texts of the characters that the comparison takes. -/
def Provider.Usable (provider : Provider) (headers : Headers) (secret : Resolved) : Prop :=
  secret.truthy = true → ∀ signature, provider.signature headers = some signature →
    ∃ s, secret = .str s ∧ isAscii signature = true ∧ provider.Takes s

/-- The secret is a text that the delivery is valid under. -/
def Provider.ValidValue (hmac : Hmac) (provider : Provider) (body : List ℕ) (headers : Headers)
    (secret : Resolved) : Prop :=
  ∃ s, secret = .str s ∧ provider.Valid hmac body headers s

/-- When exactly the deliveries that a configured secret signed are accepted. -/
inductive Unshadowed (hmac : Hmac) (environ : Environ) (provider : Provider) (body : List ℕ)
    (headers : Headers) : GitConfig → Prop
  /-- No configured secret signed a delivery that cannot be checked, for a configuration that cannot
  be loaded or a variable that is not set. -/
  | unchecked {gitConfig : GitConfig}
      (unreadable : gitConfig = .unloadable ∨
        ¬(gitConfig.section (text provider.name)).Resolvable environ)
      (unsigned : ∀ s, ConfiguredSecret environ (gitConfig.section (text provider.name)) provider s →
        ¬provider.Valid hmac body headers s) :
      Unshadowed hmac environ provider body headers gitConfig
  /-- A secret in force signed it if any did, and what comes before the first that did is usable. -/
  | checked {gitConfig : GitConfig} (loaded : gitConfig ≠ .unloadable)
      (resolvable : (gitConfig.section (text provider.name)).Resolvable environ)
      (usable : ∀ before secret after,
        inForce environ (gitConfig.section (text provider.name)) provider =
          before ++ secret :: after →
        (∀ v ∈ before, ¬provider.ValidValue hmac body headers v) → provider.Usable headers secret)
      (signed : ∀ s, ConfiguredSecret environ (gitConfig.section (text provider.name)) provider s →
        provider.Valid hmac body headers s →
          ∃ v ∈ inForce environ (gitConfig.section (text provider.name)) provider,
            provider.ValidValue hmac body headers v) :
      Unshadowed hmac environ provider body headers gitConfig

variable {hmac : Hmac} {environ : Environ} {gitConfig : GitConfig} {config : GitSection}
  {provider : Provider} {body : List ℕ} {headers : Headers} {s t : Text} {key : Text}

/-! ## Secrets -/

/-- A secret is collected when it is long enough. -/
theorem mem_foldl_addSecret {secrets xs : List Text} :
    s ∈ xs.foldl addSecret secrets ↔ s ∈ secrets ∨ s ∈ xs ∧ minSecretLength ≤ s.length := by
  -- Induction on the candidates, each of which is added once.
  induction xs generalizing secrets with
  | nil => simp
  | cons x xs ih =>
    have hadd : s ∈ addSecret secrets x ↔ s ∈ secrets ∨ s = x ∧ minSecretLength ≤ s.length := by
      unfold addSecret
      split
      · next hshort =>
        refine ⟨.inl, fun h => h.resolve_right ?_⟩
        rintro ⟨rfl, hlong⟩
        omega
      · next hlong =>
        have hlength : minSecretLength ≤ x.length := by omega
        split
        · next hmem =>
          refine ⟨.inl, fun h => h.elim id ?_⟩
          rintro ⟨rfl, -⟩
          exact hmem
        · rw [List.mem_append, List.mem_singleton]
          refine or_congr_right ⟨fun h => ⟨h, h ▸ hlength⟩, And.left⟩
    rw [List.foldl_cons, ih, hadd, List.mem_cons, or_and_right, or_assoc]

/-- The secrets that are collected are those of the environment that are long enough. -/
theorem mem_collectWebhookSecrets : s ∈ collectWebhookSecrets environ ↔ EnvSecret environ s := by
  unfold collectWebhookSecrets EnvSecret
  simp only [mem_foldl_addSecret, List.not_mem_nil, false_or, List.mem_append, Option.mem_toList,
    List.mem_map, List.mem_filter, List.mem_mergeSort, Prod.exists, exists_eq_right]

/-- A secret of the environment is not empty. -/
theorem EnvSecret.ne_nil (h : EnvSecret environ s) : s ≠ [] := by
  rintro rfl
  exact absurd h.2 (by decide)

/-! ## Settings -/

/-- The secret that a candidate stands for. -/
def effective (environ : Environ) (config : GitSection) (provider : Provider)
    (secret : Option Text) : Resolved :=
  ((((config.entries.lookup (text "webhook_secret")).getD (secretSetting secret)).resolve
    environ).getD .null).orElse (config.value environ provider.secretAlias)

/-- No provider's alias is `webhook_secret` itself. -/
theorem secretAlias_ne (provider : Provider) : provider.secretAlias ≠ text "webhook_secret" := by
  cases provider <;> decide

/-- A value of the section by its key. -/
theorem GitSection.mem_of_lookup {v : Setting} (h : config.entries.lookup key = some v) :
    (key, v) ∈ config.entries := by
  obtain ⟨before, after, heq, -⟩ := List.lookup_eq_some_iff.mp h
  rw [heq]
  exact List.mem_append_right _ List.mem_cons_self

/-- A setting is read under its key. -/
theorem GitSection.lookup_of_mem {v : Setting} (h : (key, v) ∈ config.entries) :
    config.entries.lookup key = some v := by
  obtain ⟨before, after, heq⟩ := List.append_of_mem h
  refine List.lookup_eq_some_iff.mpr ⟨before, after, heq, fun entry hentry => ?_⟩
  have hnodup := config.nodup
  rw [heq, List.map_append, List.nodup_append] at hnodup
  have hne := hnodup.2.2 entry.1 (List.mem_map_of_mem hentry) key (by simp)
  simpa using Ne.symm hne

/-- A candidate is tried when the section can be resolved. -/
theorem resolvable_withSecret (secret : Option Text) :
    ((withSecret secret config).all fun entry => (entry.2.resolve environ).isSome) = true ↔
      config.Resolvable environ := by
  unfold GitSection.Resolvable withSecret
  rw [List.all_eq_true, List.forall_mem_cons]
  constructor
  -- A value of the section is the candidate, or was there before.
  · rintro ⟨hsecret, hrest⟩ ⟨key, v⟩ hentry
    by_cases hkey : key = text "webhook_secret"
    · subst hkey
      rw [GitSection.lookup_of_mem hentry] at hsecret
      exact hsecret
    · exact hrest _ (List.mem_filter.mpr ⟨hentry, by simpa using hkey⟩)
  · intro h
    refine ⟨?_, fun entry hentry => h entry (List.mem_filter.mp hentry).1⟩
    cases hlookup : config.entries.lookup (text "webhook_secret") with
    | none => cases secret <;> rfl
    | some v => exact h _ (GitSection.mem_of_lookup hlookup)

/-- What the provider knows as its secret. -/
theorem webhookSecret_eq (secret : Option Text) :
    provider.webhookSecret ((withSecret secret config).map fun entry =>
      (entry.1, (entry.2.resolve environ).getD .null)) = effective environ config provider secret := by
  -- The alias is another key than that of the secret.
  have halias : (provider.secretAlias == text "webhook_secret") = false := by
    simpa using secretAlias_ne provider
  have hvalue : ((config.entries.lookup provider.secretAlias).map fun v =>
      (v.resolve environ).getD .null).getD .null = config.value environ provider.secretAlias := by
    unfold GitSection.value
    cases config.entries.lookup provider.secretAlias <;> rfl
  unfold Provider.webhookSecret effective withSecret
  rw [List.map_cons, List.lookup_cons_self, List.lookup_cons, halias]
  dsimp only
  rw [lookup_map (fun v : Setting => (v.resolve environ).getD Resolved.null),
    lookup_filter_ne (secretAlias_ne provider),
    hvalue]
  rfl

/-- What a candidate stands for when the section sets the secret. -/
theorem effective_of_set (h : (config.entries.lookup (text "webhook_secret")).isSome = true)
    (secret : Option Text) :
    effective environ config provider secret = config.secret environ provider := by
  obtain ⟨v, hv⟩ := Option.isSome_iff_exists.mp h
  simp [effective, GitSection.secret, GitSection.value, hv]

/-- Without a secret of its own, a candidate takes the configured one. -/
theorem effective_none (h : config.entries.lookup (text "webhook_secret") = none) :
    effective environ config provider none = config.secret environ provider := by
  simp [effective, GitSection.secret, GitSection.value, h, secretSetting, Setting.resolve]

/-- With a secret of its own, a candidate keeps it. -/
theorem effective_some (h : config.entries.lookup (text "webhook_secret") = none) (hs : s ≠ []) :
    effective environ config provider (some s) = .str s := by
  simp [effective, h, secretSetting, Setting.resolve, Resolved.orElse, Resolved.truthy, hs]

/-! ## The comparison -/

/-- A text is ASCII when its parts are. -/
theorem isAscii_append : isAscii (s ++ t) = (isAscii s && isAscii t) := List.all_append

/-- A digest is written in ASCII. -/
theorem isAscii_hexdigest (digest : List (Fin 16)) : isAscii (hexdigest digest) = true := by
  have hdigit : ∀ d : Fin 16, (hexChar d.val).val < 0x80 := by decide
  simp only [isAscii, hexdigest, List.all_map, List.all_eq_true]
  exact fun d _ => decide_eq_true (hdigit d)

/-- Taking the prefix off a signature leaves ASCII as it was. -/
theorem isAscii_removeSha256 : isAscii (removeSha256 s) = isAscii s := by
  unfold removeSha256
  split
  · next hprefix =>
    obtain ⟨rest, rfl⟩ := List.isPrefixOf_iff_prefix.mp hprefix
    rw [List.drop_left, isAscii_append, show isAscii sha256Prefix = true by decide, Bool.true_and]
  · rfl

/-- Against an ASCII text, the comparison raises on what is not ASCII. -/
theorem compareDigest_of_ascii (hs : isAscii s = true) :
    compareDigest s t = if isAscii t then .ok (s = t) else .error .typeError := by
  unfold compareDigest
  rw [hs, Bool.true_and]

/-- The digest is that of the encoded secret. -/
theorem expectedDigest_of_encodable (hs : encodable s = true) :
    expectedDigest hmac (.str s) body = .ok (hexdigest (hmac s body)) := if_pos hs

/-- A signature in ASCII is compared with that of a usable secret. -/
theorem checkSignature_ok (hmac : Hmac) (body : List ℕ) {signature : Text}
    (hsignature : isAscii signature = true)
    (hs : provider.Takes s) :
    ∃ b, provider.checkSignature hmac (.str s) body signature = .ok b ∧
      (b = true ↔ provider.Signs hmac body signature s) := by
  -- A digest in hexadecimal is ASCII, so the comparison does not raise.
  have hdigest := isAscii_hexdigest (hmac s body)
  have hremoved : isAscii (removeSha256 signature) = true := by rwa [isAscii_removeSha256]
  have hstripped : encodable s = true →
      (decide (hexdigest (hmac s body) = removeSha256 signature) = true ↔
        encodable s = true ∧ removeSha256 signature = hexdigest (hmac s body)) := fun hs => by
    rw [decide_eq_true_eq, eq_comm]
    exact ⟨fun h => ⟨hs, h⟩, And.right⟩
  unfold Provider.checkSignature
  -- GitHub compares with the prefix, GitLab compares the secret, the others strip it.
  cases provider with
  | github =>
    have hprefix : isAscii (sha256Prefix ++ hexdigest (hmac s body)) = true := by
      rw [isAscii_append, hdigest]
      decide
    refine ⟨decide (sha256Prefix ++ hexdigest (hmac s body) = signature), ?_, ?_⟩
    · simp only [expectedDigest_of_encodable hs, bind, Except.bind, compareDigest_of_ascii hprefix,
        hsignature, if_true]
    · rw [decide_eq_true_eq, eq_comm]
      exact ⟨fun h => ⟨hs, h⟩, And.right⟩
  | gitlab =>
    refine ⟨decide (s = signature), ?_, by rw [decide_eq_true_eq, eq_comm]; rfl⟩
    simp only [compareDigest_of_ascii hs, hsignature, if_true]
  | gitea =>
    refine ⟨decide (hexdigest (hmac s body) = removeSha256 signature), ?_, hstripped hs⟩
    simp only [expectedDigest_of_encodable hs, bind, Except.bind, compareDigest_of_ascii hdigest,
      hremoved, if_true]
  | bitbucket =>
    refine ⟨decide (hexdigest (hmac s body) = removeSha256 signature), ?_, hstripped hs⟩
    simp only [expectedDigest_of_encodable hs, bind, Except.bind, compareDigest_of_ascii hdigest,
      hremoved, if_true]

/-- A secret that is not a text, or not of the characters that are taken, stops the comparison, and
so does a signature that is not in ASCII. -/
theorem checkSignature_error (hmac : Hmac) (body : List ℕ) {signature : Text} {secret : Resolved}
    (h : ∀ s, secret = .str s → isAscii signature = true → ¬provider.Takes s) :
    ∃ e, provider.checkSignature hmac secret body signature = .error e := by
  -- a comparison fails when one of the two is not in ASCII
  have hcompare : ∀ {a b : Text}, (isAscii a && isAscii b) = false →
      ∃ e, compareDigest a b = .error e := fun hab => ⟨_, by rw [compareDigest, hab]; rfl⟩
  cases secret with
  | null => cases provider <;> exact ⟨_, rfl⟩
  | other b => cases provider <;> exact ⟨_, rfl⟩
  | str s =>
    have hnot : provider.Takes s → isAscii signature = false := fun hs => by
      rw [Bool.eq_false_iff]
      exact fun hascii => h s rfl hascii hs
    have hdigest : ∀ start removed : Text, isAscii removed = isAscii signature →
        (encodable s = true → isAscii signature = false) →
          ∃ e, (expectedDigest hmac (.str s) body >>= fun digest =>
            compareDigest (start ++ digest) removed) = .error e := by
      intro start removed hremoved hnot
      unfold expectedDigest
      dsimp only
      split
      · next hs =>
        exact hcompare (by rw [hremoved, hnot hs, Bool.and_false])
      · exact ⟨_, rfl⟩
    unfold Provider.checkSignature
    cases provider with
    | github => exact hdigest sha256Prefix signature rfl hnot
    | gitlab =>
      refine hcompare ?_
      cases hs : isAscii s with
      | false => rfl
      | true => rw [hnot hs, Bool.and_false]
    | gitea => exact hdigest [] _ isAscii_removeSha256 hnot
    | bitbucket => exact hdigest [] _ isAscii_removeSha256 hnot

/-- A usable secret is compared, and the answer is whether the delivery is valid under it. -/
theorem verify_of_usable (hmac : Hmac) (body : List ℕ) {secret : Resolved} (h : provider.Usable headers secret) :
    ∃ b, provider.verifyWebhookSignature hmac secret body headers = .ok b ∧
      (b = true ↔ provider.ValidValue hmac body headers secret) := by
  unfold Provider.verifyWebhookSignature
  -- An empty secret verifies nothing.
  cases htrue : secret.truthy with
  | false =>
    refine ⟨false, rfl, iff_of_false Bool.false_ne_true ?_⟩
    rintro ⟨s, rfl, hne, -⟩
    simp [Resolved.truthy, hne] at htrue
  | true =>
    rw [if_pos rfl]
    -- A delivery without a signature is not valid.
    cases hsignature : provider.signature headers with
    | none =>
      refine ⟨false, rfl, iff_of_false Bool.false_ne_true ?_⟩
      rintro ⟨s, rfl, -, signature, hsome, -⟩
      cases hsignature.symm.trans hsome
    | some signature =>
      obtain ⟨s, rfl, hascii, hs⟩ := h htrue signature hsignature
      have hne : s ≠ [] := by simpa [Resolved.truthy] using htrue
      obtain ⟨b, hb, hiff⟩ := checkSignature_ok hmac body hascii hs
      refine ⟨b, hb, hiff.trans ⟨fun h => ⟨s, rfl, hne, signature, hsignature, h⟩, ?_⟩⟩
      rintro ⟨t, ht, -, signature', hsignature', h⟩
      obtain rfl := Resolved.str.inj ht
      obtain rfl := Option.some.inj (hsignature.symm.trans hsignature')
      exact h

/-- A secret that is not usable stops the request. -/
theorem verify_of_not_usable (hmac : Hmac) (body : List ℕ) {secret : Resolved} (h : ¬provider.Usable headers secret) :
    ∃ e, provider.verifyWebhookSignature hmac secret body headers = .error e := by
  unfold Provider.Usable at h
  push Not at h
  obtain ⟨htrue, signature, hsignature, hnot⟩ := h
  unfold Provider.verifyWebhookSignature
  rw [if_pos htrue, hsignature]
  exact checkSignature_error hmac body hnot

/-! ## The search -/

/-- The check of a secret in force. -/
def checkInForce (hmac : Hmac) (provider : Provider) (body : List ℕ) (headers : Headers)
    (secret : Resolved) : Except Stop Bool :=
  (provider.verifyWebhookSignature hmac secret body headers).mapError .raised

/-- A provider is found by its name. -/
theorem ofName_name (provider : Provider) :
    Provider.ofName (text provider.name) = some provider := by
  cases provider <;> decide

/-- A secret that can be resolved is checked. -/
theorem trySecret_of_resolvable (h : config.Resolvable environ) (secret : Option Text) :
    trySecret hmac environ config (text provider.name) body headers secret =
      checkInForce hmac provider body headers (effective environ config provider secret) := by
  unfold trySecret resolveProviderConfig
  rw [if_pos ((resolvable_withSecret secret).mpr h)]
  rw [ofName_name]
  dsimp only
  rw [webhookSecret_eq]
  rfl

/-- A secret that cannot be resolved is answered as such. -/
theorem trySecret_of_not_resolvable (h : ¬config.Resolvable environ) (name : Text)
    (secret : Option Text) :
    trySecret hmac environ config name body headers secret = .error (.http unresolvableSecret) := by
  unfold trySecret resolveProviderConfig
  rw [if_neg (fun hall => h ((resolvable_withSecret secret).mp hall))]

/-- There is always a candidate to try. -/
theorem candidates_ne_nil (environ : Environ) : candidates environ ≠ [] := by
  unfold candidates
  split
  · exact List.cons_ne_nil _ _
  · next hne => simpa using hne

/-- The candidates stand for the secrets in force. -/
theorem search_candidates (h : config.Resolvable environ) :
    (candidates environ).anyM (trySecret hmac environ config (text provider.name) body headers) =
      (inForce environ config provider).anyM (checkInForce hmac provider body headers) := by
  rw [anyM_congr fun secret _ => trySecret_of_resolvable h secret]
  unfold inForce
  split
  · next hset =>
    -- then every candidate stands for the section's secret
    have hone : [config.secret environ provider].anyM (checkInForce hmac provider body headers) =
        checkInForce hmac provider body headers (config.secret environ provider) := by
      exact anyM_const (List.cons_ne_nil _ _) fun v hv => by rw [List.mem_singleton.mp hv]
    rw [hone]
    refine anyM_const (candidates_ne_nil environ) fun secret hsecret => ?_
    cases hlookup : config.entries.lookup (text "webhook_secret") with
    | some v => rw [effective_of_set (by rw [hlookup]; rfl)]
    | none =>
      obtain hset | hnone := hset
      · rw [hlookup] at hset
        cases hset
      · unfold candidates at hsecret
        rw [hnone] at hsecret
        obtain rfl := List.mem_singleton.mp hsecret
        rw [effective_none hlookup]
  · next hset =>
    obtain ⟨hunset, hsome⟩ := not_or.mp hset
    have hlookup := Option.not_isSome_iff_eq_none.mp hunset
    have hcandidates : candidates environ = (collectWebhookSecrets environ).map some := by
      unfold candidates
      split
      · next hnone => exact absurd hnone hsome
      · rfl
    rw [hcandidates, anyM_map, anyM_map]
    refine anyM_congr fun s hs => ?_
    rw [effective_some hlookup (mem_collectWebhookSecrets.mp hs).ne_nil]

/-- A secret in force is a configured one. -/
theorem configured_of_mem_inForce (h : Resolved.str s ∈ inForce environ config provider) :
    ConfiguredSecret environ config provider s := by
  unfold inForce at h
  split at h
  · exact .inr (List.mem_singleton.mp h).symm
  · obtain ⟨t, ht, heq⟩ := List.mem_map.mp h
    obtain rfl := Resolved.str.inj heq
    exact .inl (mem_collectWebhookSecrets.mp ht)

/-- A usable secret tells a valid signature from another. -/
theorem checkInForce_of_usable (hmac : Hmac) (body : List ℕ) (secret : Resolved)
    (h : provider.Usable headers secret) :
    ∃ b, checkInForce hmac provider body headers secret = .ok b ∧
      (b = true ↔ provider.ValidValue hmac body headers secret) := by
  obtain ⟨b, hb, hiff⟩ := verify_of_usable hmac body h
  exact ⟨b, by rw [checkInForce, hb]; rfl, hiff⟩

/-- A secret that is not usable raises. -/
theorem checkInForce_of_not_usable (hmac : Hmac) (body : List ℕ) (secret : Resolved)
    (h : ¬provider.Usable headers secret) :
    ∃ e, checkInForce hmac provider body headers secret = .error (.raised e) := by
  obtain ⟨e, he⟩ := verify_of_not_usable hmac body h
  exact ⟨e, by rw [checkInForce, he]; rfl⟩

/-- Where every candidate, or the whole configuration, is refused with a structured error. -/
theorem verifies_iff_of_http {e : StructuredError}
    (h : verifySignature hmac environ gitConfig (text provider.name) body headers =
      .error (.http e)) :
    Verifies hmac environ gitConfig provider body headers ↔
      ∀ s, ConfiguredSecret environ (gitConfig.section (text provider.name)) provider s →
        ¬provider.Valid hmac body headers s := by
  constructor
  · intro hverifies s hs hvalid
    have hok := hverifies.accepted.mpr ⟨s, hs, hvalid⟩
    cases h.symm.trans hok
  · intro hnone
    -- Nothing is accepted, and the error is the structured one.
    refine ⟨iff_of_false (by rw [h]; exact fun h => by cases h) ?_, ?_⟩
    · rintro ⟨s, hs, hvalid⟩
      exact hnone s hs hvalid
    · intro e' he'
      cases h.symm.trans he'

/-- Where the candidates can be tried. -/
theorem verifySignature_of_resolvable (hmac : Hmac) (body : List ℕ) (headers : Headers)
    (hloaded : gitConfig ≠ .unloadable)
    (h : (gitConfig.section (text provider.name)).Resolvable environ) :
    verifySignature hmac environ gitConfig (text provider.name) body headers =
      (inForce environ (gitConfig.section (text provider.name)) provider).anyM
        (checkInForce hmac provider body headers) >>= fun found =>
          if found then pure () else .error (.http invalidSignature) := by
  unfold verifySignature
  cases gitConfig with
  | unloadable => exact absurd rfl hloaded
  | fileNotFound =>
    dsimp only
    rw [search_candidates h]
  | loaded sections =>
    dsimp only
    rw [search_candidates h]

/-- A configuration that cannot be read refuses every delivery with a structured error. -/
theorem verifySignature_of_unreadable (hmac : Hmac) (body : List ℕ) (headers : Headers)
    (h : gitConfig = .unloadable ∨
    ¬(gitConfig.section (text provider.name)).Resolvable environ) :
    ∃ e, verifySignature hmac environ gitConfig (text provider.name) body headers =
      .error (.http e) := by
  have hsearch : ¬(gitConfig.section (text provider.name)).Resolvable environ →
      (candidates environ).anyM (trySecret hmac environ (gitConfig.section (text provider.name))
        (text provider.name) body headers) = .error (.http unresolvableSecret) := fun hnot =>
    anyM_const (candidates_ne_nil environ) fun secret _ => trySecret_of_not_resolvable hnot _ secret
  unfold verifySignature
  -- By how the configuration is read; without one only the environment is searched.
  cases gitConfig with
  | unloadable => exact ⟨_, rfl⟩
  | fileNotFound =>
    dsimp only
    rw [hsearch (h.resolve_left (by simp))]
    exact ⟨_, rfl⟩
  | loaded sections =>
    dsimp only
    rw [hsearch (h.resolve_left (by simp))]
    exact ⟨_, rfl⟩

/-- The search stops at a secret that is not usable, when none before it signed the delivery. -/
theorem search_stops_iff {secrets : List Resolved} :
    (∃ e, secrets.anyM (checkInForce hmac provider body headers) = .error e) ↔
      ∃ before v after, secrets = before ++ v :: after ∧
        (∀ w ∈ before, ¬provider.ValidValue hmac body headers w) ∧ ¬provider.Usable headers v :=
  exists_anyM_error_iff (checkInForce_of_usable hmac body)
    fun v hv => (checkInForce_of_not_usable hmac body v hv).elim fun _ he => ⟨_, he⟩

section InForce

variable (hloaded : gitConfig ≠ .unloadable)
  (hresolvable : (gitConfig.section (text provider.name)).Resolvable environ)

include hloaded hresolvable

/-- Where the search does not stop, a delivery is accepted when a secret in force signed it. -/
theorem verifies_iff_of_search
    (hok : ∀ e, (inForce environ (gitConfig.section (text provider.name)) provider).anyM
      (checkInForce hmac provider body headers) ≠ .error e) :
    Verifies hmac environ gitConfig provider body headers ↔
      ∀ s, ConfiguredSecret environ (gitConfig.section (text provider.name)) provider s →
        provider.Valid hmac body headers s →
          ∃ v ∈ inForce environ (gitConfig.section (text provider.name)) provider,
            provider.ValidValue hmac body headers v := by
  have hverify := verifySignature_of_resolvable hmac body headers hloaded hresolvable
  -- The search finds a secret under which the delivery is valid.
  have htrue := anyM_ok_true_iff (checkInForce_of_usable hmac body)
    (fun v hv => (checkInForce_of_not_usable hmac body v hv).elim fun e he => ⟨_, he⟩) hok
  have haccepted : verifySignature hmac environ gitConfig (text provider.name) body headers =
      .ok () ↔ ∃ v ∈ inForce environ (gitConfig.section (text provider.name)) provider,
        provider.ValidValue hmac body headers v := by
    rw [hverify, ← htrue, bind_ok_iff]
    constructor
    · rintro ⟨found, hfound, h⟩
      cases found with
      | true => exact hfound
      | false => cases h
    · exact fun h => ⟨true, h, rfl⟩
  constructor
  · intro h s hs hvalid
    exact haccepted.mp (h.accepted.mpr ⟨s, hs, hvalid⟩)
  · intro h
    refine ⟨haccepted.trans ⟨?_, fun ⟨s, hs, hvalid⟩ => h s hs hvalid⟩, fun e he => ?_⟩
    · rintro ⟨v, hv, s, rfl, hvalid⟩
      exact ⟨s, configured_of_mem_inForce hv, hvalid⟩
    · -- the search gives an answer, and both answers are no other exception
      rw [hverify] at he
      cases hsearch : (inForce environ (gitConfig.section (text provider.name)) provider).anyM
          (checkInForce hmac provider body headers) with
      | error e' => exact hok e' hsearch
      | ok found =>
        rw [hsearch] at he
        cases found <;> cases he

/-- Where the search stops, the exception is no HTTP error. -/
theorem not_verifies_of_search {e : Stop}
    (h : (inForce environ (gitConfig.section (text provider.name)) provider).anyM
      (checkInForce hmac provider body headers) = .error e) :
    ¬Verifies hmac environ gitConfig provider body headers := by
  intro hverifies
  obtain ⟨before, v, after, -, -, hv⟩ := (anyM_eq_iff (by simp)).mp h
  obtain ⟨e', he'⟩ : ∃ e', checkInForce hmac provider body headers v = .error (.raised e') := by
    by_cases husable : provider.Usable headers v
    · obtain ⟨b, hb, -⟩ := checkInForce_of_usable hmac body v husable
      cases hb.symm.trans hv
    · exact checkInForce_of_not_usable hmac body v husable
  refine hverifies.refused e' ?_
  rw [verifySignature_of_resolvable hmac body headers hloaded hresolvable, h, ← hv, he']
  rfl

end InForce

end Fraisier.Webhook
