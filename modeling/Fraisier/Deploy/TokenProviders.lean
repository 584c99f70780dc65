import Mathlib.Data.List.Dedup
import Mathlib.Data.List.Lex
import Mathlib.Data.List.Sort
import Mathlib.Order.Fin.Basic
import Fraisier.Lib.Lookup
import Fraisier.Lib.StrFormat

/-!
# Token formats

`_validate_format` of `token_providers.py`, and `materialize_test_headers` of `smoke_tests.py`, which
puts tokens into headers by the formats that were accepted. A format is accepted for the names of its
fields: conversions, precisions and the fields inside specifications are not looked at.

`carries_iff` says which of the accepted formats carry every token. Two tokens decide it, the empty
one and two newlines: `specification_of` says that what a specification is read to for these it is
read to for all.
-/

namespace Fraisier.TokenProviders

open Fraisier.Lib Unicode StrFormat Fallible

/-! ## Formats -/

/-- A value of the configuration. -/
inductive RawFormat
  | lazyEnv (name : Text)
  | str (fmt : Text)
  /-- A value of another type. -/
  | other (typeName : Text)

/-- What attributes and items of the token give. -/
inductive Reached
  /-- An exception is raised. -/
  | raises
  /-- The token itself. -/
  | token
  /-- Something got from an item. An index into the empty token is an `IndexError`. -/
  | item (shown : Text → Shows)
  /-- Something that is the same for all tokens. -/
  | other (shown : Shows)

/-- What the interpreter adds to a format. -/
structure Python extends Version where
  /-- What the token gives by the attributes and items after its name. -/
  reach : Text → Reached

variable (py : Python)

/-- `repr` of a list of strings. -/
def reprs (names : List Text) : Text :=
  chr '[' :: (text ", ").intercalate (names.map (repr py.isPrintable)) ++ [chr ']']

/-- The names of the fields. -/
def fieldNames (parts : List Piece) : List Text := parts.filterMap fun piece =>
  piece.field.map Field.name

/-- `_validate_format`, with the text of its `ConfigurationError`. -/
def validateFormat : RawFormat → Except Text Unit
  | .lazyEnv name => .error (text "token_provider.format must be a literal string, not !envvar " ++
      text "(saw reference to " ++ repr py.isPrintable name ++
      text "); the format is code-shape, not config — use a literal like \"Bearer \x7btoken\x7d\"")
  | .other typeName => .error (text "token_provider.format must be a string, got " ++ typeName)
  | .str fmt =>
    match parse fmt with
    | .error e =>
      .error (text "token_provider.format is not a valid format string: " ++ e.message)
    | .ok parts =>
      let names := fieldNames parts
      let others := (names.dedup.filter (· ≠ text "token")).insertionSort (· ≤ ·)
      if text "token" ∉ names then
        .error (text "token_provider.format must contain the literal '\x7btoken\x7d' " ++
          text "placeholder, got " ++ repr py.isPrintable fmt)
      else if others ≠ [] then
        .error (text "token_provider.format contains unsupported placeholder(s) " ++
          reprs py others ++ text "; only '\x7btoken\x7d' is substituted (got " ++
          repr py.isPrintable fmt ++ text ")")
      else .ok ()

/-- A character that begins an attribute or an item in the name of a field. -/
def isAccess (c : CodePoint) : Bool := c = chr '.' || c = chr '['

/-- What a field shows in `fmt.format(token=token)`. -/
def tokenField (token : Text) : Shows := fun name conversion spec =>
  if name.takeWhile (!isAccess ·) ≠ text "token" then none
  else
    match name.dropWhile (!isAccess ·) with
    | [] => showStr py.toVersion token conversion spec
    | access =>
      match py.reach access with
      | .raises => none
      | .token => showStr py.toVersion token conversion spec
      | .item shown => if token = [] then none else shown token name conversion spec
      | .other shown => shown name conversion spec

/-- `fmt.format(token=token)`. -/
def rendered (fmt token : Text) : Option Text := StrFormat.format (tokenField py token) fmt

/-! ## What carries a token -/

/-- The fields of a format. -/
def fields (fmt : Text) : List Field := ((parse fmt).toOption.getD []).filterMap Piece.field

/-- The specification of a field for a token, once its own fields are filled in. -/
def specification (token : Text) (field : Field) : Option Spec :=
  (field.filled (build (tokenField py token) 1)).bind (strSpec py.groups)

/-- Every token is in what the format makes of it. -/
def Carries (fmt : Text) : Prop := ∀ token, ∃ out, rendered py fmt token = some out ∧ token <:+: out

/-- The conversions are known, and for the empty token and for two newlines the specifications are
specifications of strings; and some field keeps the token and has no precision. -/
structure Carrying (fmt : Text) : Prop where
  known : ∀ field ∈ fields fmt, (convert py.toVersion field.conversion []).isSome
  empty : ∀ field ∈ fields fmt, (specification py [] field).isSome
  reads : ∀ field ∈ fields fmt, (specification py (newlines 2) field).isSome
  whole : ∃ field ∈ fields fmt, keeps field.conversion ∧
    ∃ spec, specification py (newlines 2) field = some spec ∧ spec.precision = none

/-- How many newlines a piece may show, when no field keeps the token whole. -/
def newlineBound (piece : Piece) : ℕ :=
  piece.literal.length + ((piece.field.bind (specification py (newlines 2))).elim 0 fun spec =>
    spec.precision.getD 0 + spec.width.getD 0)

section

variable {py} {fmt token x : Text} {field : Field} {parts : List Piece}

/-- The fields of what is accepted have the name of the token. -/
theorem name_of_accepted (h : validateFormat py (.str fmt) = .ok ()) :
    ∃ parts, parse fmt = .ok parts ∧
      ∀ piece ∈ parts, ∀ field, piece.field = some field → field.name = text "token" := by
  unfold validateFormat at h
  dsimp only at h
  cases hparse : parse fmt with
  | error e =>
    rw [hparse] at h
    nomatch h
  -- Every field has the token's name, or the format is refused.
  | ok parts =>
    rw [hparse] at h
    dsimp only at h
    split at h
    · nomatch h
    · split at h
      · nomatch h
      · next hothers =>
        have hnil : (fieldNames parts).dedup.filter (· ≠ text "token") = [] := by
          have hsorted := List.perm_insertionSort (· ≤ ·)
            ((fieldNames parts).dedup.filter (· ≠ text "token"))
          rw [not_not.mp hothers] at hsorted
          exact hsorted.symm.eq_nil
        refine ⟨parts, rfl, fun piece hpiece field hfield => ?_⟩
        have hmem : field.name ∈ (fieldNames parts).dedup := List.mem_dedup.mpr <|
          List.mem_filterMap.mpr ⟨piece, hpiece, by rw [hfield]; rfl⟩
        simpa using List.filter_eq_nil_iff.mp hnil _ hmem

/-- The fields are those of the parsed pieces. -/
theorem mem_fields (hparse : parse fmt = .ok parts) :
    field ∈ fields fmt ↔ ∃ piece ∈ parts, piece.field = some field := by
  unfold fields
  rw [hparse]
  exact List.mem_filterMap

/-- What a field of the token's name shows. -/
theorem tokenField_token (token : Text) (conversion : Option CodePoint) (spec : Text) :
    tokenField py token (text "token") conversion spec =
      showStr py.toVersion token conversion spec := rfl

/-- What is shown of two newlines and of the empty token is shown of every token, up to the fill. -/
theorem tokenField_varies (ht : token ≠ []) (name : Text) (conversion : Option CodePoint)
    (spec x₀ x : Text) (hempty : tokenField py [] name conversion spec = some x₀)
    (hx : tokenField py (newlines 2) name conversion spec = some x) (hplain : ∀ c ∈ x.tail, Plain c) :
    ∃ y, tokenField py token name conversion spec = some y ∧ Varies x y := by
  unfold tokenField at hempty hx ⊢
  split at hx
  · nomatch hx
  · next hname =>
    rw [if_neg hname] at hempty ⊢
    -- The token itself is shown, or something of it.
    cases haccess : name.dropWhile (!isAccess ·) with
    | nil =>
      rw [haccess] at hx
      exact exists_varies hx hplain ht
    | cons c access =>
      rw [haccess] at hempty hx
      dsimp only at hempty hx ⊢
      cases hreach : py.reach (c :: access) with
      | raises =>
        rw [hreach] at hx
        nomatch hx
      | token =>
        rw [hreach] at hx
        exact exists_varies hx hplain ht
      | item shown =>
        rw [hreach] at hempty
        nomatch hempty
      | other shown =>
        rw [hreach] at hx
        exact ⟨x, hx, .inl rfl⟩

/-- A specification is read alike for all tokens, but for the fill. -/
theorem specification_of (hempty : (specification py [] field).isSome) {spec : Spec}
    (h : specification py (newlines 2) field = some spec) (ht : token ≠ []) :
    ∃ c, specification py token field = some { spec with fill := c } := by
  obtain ⟨spec₀, hspec₀⟩ := Option.isSome_iff_exists.mp hempty
  obtain ⟨x₀, hx₀, -⟩ := Option.bind_eq_some_iff.mp hspec₀
  obtain ⟨x, hx, hspec⟩ := Option.bind_eq_some_iff.mp h
  obtain ⟨y, hy, hvary⟩ := filled_varies (tokenField_varies ht) hx₀ hx (plain_tail hspec)
  obtain ⟨c, hc⟩ := hvary.strSpec hspec
  exact ⟨c, Option.bind_eq_some_iff.mpr ⟨y, hy, hc⟩⟩

/-! ## Which formats carry every token -/

/-- What is rendered shows the token in each field, by its conversion and its specification. -/
theorem shown_of_rendered (hparse : parse fmt = .ok parts)
    (hname : ∀ piece ∈ parts, ∀ field, piece.field = some field → field.name = text "token")
    (h : rendered py fmt token = some x) {piece : Piece} (hpiece : piece ∈ parts)
    (hfield : piece.field = some field) : ∃ σ spec shown,
      field.filled (build (tokenField py token) 1) = some σ ∧ strSpec py.groups σ = some spec ∧
        showStr py.toVersion token field.conversion σ = some shown := by
  obtain ⟨parts', texts, hparse', htexts, -⟩ := build_iff.mp h
  obtain rfl := Except.ok.inj (hparse.symm.trans hparse')
  obtain ⟨y, -, hy⟩ := mem_of_mapM htexts hpiece
  obtain ⟨σ, shown, hσ, hshown, -⟩ := shown_field hfield hy
  rw [hname piece hpiece field hfield, tokenField_token] at hshown
  obtain ⟨_, -, hrest⟩ := Option.bind_eq_some_iff.mp hshown
  obtain ⟨spec, hspec, -⟩ := Option.bind_eq_some_iff.mp hrest
  exact ⟨σ, spec, shown, hσ, hspec, hshown⟩

/-- A format that carries every token keeps it whole: one that cuts it everywhere shows no more
newlines than its widths and precisions leave, and some token has more. -/
theorem whole_of_carries (hparse : parse fmt = .ok parts)
    (hname : ∀ piece ∈ parts, ∀ field, piece.field = some field → field.name = text "token")
    (hempty : ∀ field ∈ fields fmt, (specification py [] field).isSome)
    (hreads : ∀ field ∈ fields fmt, (specification py (newlines 2) field).isSome)
    (h : Carries py fmt) : ∃ field ∈ fields fmt, keeps field.conversion ∧
      ∃ spec, specification py (newlines 2) field = some spec ∧ spec.precision = none := by
  by_contra hnone
  -- Suppose every field cuts what it shows.
  have hcut : ∀ field ∈ fields fmt, keeps field.conversion = true → ∀ spec,
      specification py (newlines 2) field = some spec → spec.precision ≠ none :=
    fun field hfield hkeeps spec hspec hp => hnone ⟨field, hfield, hkeeps, spec, hspec, hp⟩
  -- A token of more newlines than all fields can show is cut.
  let n := (parts.map (newlineBound py)).sum
  obtain ⟨out, hout, hinfix⟩ := h (newlines (n + 1))
  have hcount : (newlines (n + 1)).count (chr '\n') ≤ out.count (chr '\n') :=
    hinfix.sublist.count_le _
  obtain ⟨parts', texts, hparse', htexts, rfl⟩ := build_iff.mp hout
  obtain rfl := Except.ok.inj (hparse.symm.trans hparse')
  have hle : texts.flatten.count (chr '\n') ≤ n := by
    refine count_flatten_le htexts fun piece hpiece x hx => ?_
    have hliteral : piece.literal.count (chr '\n') ≤ piece.literal.length := List.count_le_length
    unfold newlineBound
    cases hfield : piece.field with
    | none =>
      unfold Piece.shown at hx
      rw [hfield] at hx
      obtain rfl := Option.some.inj hx
      exact Nat.le_add_right_of_le hliteral
    | some field =>
      have hmem := (mem_fields hparse).mpr ⟨piece, hpiece, hfield⟩
      obtain ⟨spec, hspec⟩ := Option.isSome_iff_exists.mp (hreads field hmem)
      obtain ⟨c, hc⟩ := specification_of (hempty field hmem) hspec
        (List.cons_ne_nil (chr '\n') (newlines n))
      obtain ⟨σ, shown, hσ, hshown, rfl⟩ := shown_field hfield hx
      obtain ⟨σ', hσ', hc⟩ := Option.bind_eq_some_iff.mp hc
      obtain rfl := Option.some.inj (hσ.symm.trans hσ')
      rw [hname piece hpiece field hfield, tokenField_token] at hshown
      have hfew := count_showStr hc hshown fun hkeeps => hcut field hmem hkeeps spec hspec
      rw [List.count_append, Option.bind_some, hspec]
      exact Nat.add_le_add hliteral hfew
  rw [newlines, List.count_replicate_self] at hcount
  omega

/-- Where every token is carried, each field has its specification. -/
theorem specification_of_carrying (hcarrying : Carrying py fmt) (hfield : field ∈ fields fmt)
    (token : Text) : ∃ spec, specification py token field = some spec := by
  by_cases ht : token = []
  · subst ht
    exact Option.isSome_iff_exists.mp (hcarrying.empty field hfield)
  · obtain ⟨spec, hspec⟩ := Option.isSome_iff_exists.mp (hcarrying.reads field hfield)
    obtain ⟨c, hc⟩ := specification_of (hcarrying.empty field hfield) hspec ht
    exact ⟨_, hc⟩

/-- What the piece of a field shows, where the conversion is known and the specification read. -/
theorem shown_of_specification {piece : Piece} (hfield : piece.field = some field)
    (hname : field.name = text "token") {y : Text}
    (hy : convert py.toVersion field.conversion token = some y) {spec : Spec}
    (hspec : specification py token field = some spec) :
    piece.shown (tokenField py token) (build (tokenField py token) 1) =
      some (piece.literal ++ spec.apply y) := by
  obtain ⟨σ, hσ, hread⟩ := Option.bind_eq_some_iff.mp hspec
  refine Piece.shown_eq hfield hσ ?_
  rw [hname, tokenField_token]
  exact Option.bind_eq_some_iff.mpr ⟨y, hy, Option.bind_eq_some_iff.mpr ⟨spec, hread, rfl⟩⟩

/-- Where every token is carried, the format is rendered. -/
theorem rendered_of_carrying (hparse : parse fmt = .ok parts)
    (hname : ∀ piece ∈ parts, ∀ field, piece.field = some field → field.name = text "token")
    (hcarrying : Carrying py fmt) (token : Text) : ∃ texts, rendered py fmt token = some texts.flatten ∧
      parts.mapM (Piece.shown (tokenField py token) (build (tokenField py token) 1)) =
        some texts := by
  suffices htexts : ∃ texts, parts.mapM
      (Piece.shown (tokenField py token) (build (tokenField py token) 1)) = some texts by
    obtain ⟨texts, htexts⟩ := htexts
    exact ⟨texts, build_iff.mpr ⟨parts, texts, hparse, htexts, rfl⟩, htexts⟩
  -- A literal is shown as it is, and a field after its conversion and its specification.
  refine exists_mapM fun piece hpiece => ?_
  cases hfield : piece.field with
  | none =>
    unfold Piece.shown
    rw [hfield]
    exact ⟨_, rfl⟩
  | some field =>
    have hmem := (mem_fields hparse).mpr ⟨piece, hpiece, hfield⟩
    obtain ⟨y₀, hy₀⟩ := Option.isSome_iff_exists.mp (hcarrying.known field hmem)
    obtain ⟨y, hy⟩ := convert_isSome hy₀ token
    obtain ⟨spec, hspec⟩ := specification_of_carrying hcarrying hmem token
    exact ⟨_, shown_of_specification hfield (hname piece hpiece field hfield) hy hspec⟩

/-- A field that keeps the token and has no precision shows all of it. -/
theorem infix_of_carrying (hparse : parse fmt = .ok parts)
    (hname : ∀ piece ∈ parts, ∀ field, piece.field = some field → field.name = text "token")
    (hcarrying : Carrying py fmt) (ht : token ≠ []) {texts : List Text}
    (htexts : parts.mapM (Piece.shown (tokenField py token) (build (tokenField py token) 1)) =
      some texts) : token <:+: texts.flatten := by
  obtain ⟨field, hmem, hkeeps, spec, hspec₂, hwhole⟩ := hcarrying.whole
  obtain ⟨c, hc⟩ := specification_of (hcarrying.empty field hmem) hspec₂ ht
  obtain ⟨piece, hpiece, hfield⟩ := (mem_fields hparse).mp hmem
  -- The conversion that keeps one value keeps every value.
  have hy : convert py.toVersion field.conversion token = some token := by
    obtain ⟨y₀, hy₀⟩ := Option.isSome_iff_exists.mp (hcarrying.known field hmem)
    rcases convert_cases hy₀ with ⟨-, hall⟩ | ⟨hnot, -⟩ | ⟨hnot, -⟩
    · exact hall token
    · exact absurd (hkeeps.symm.trans hnot) Bool.noConfusion
    · exact absurd (hkeeps.symm.trans hnot) Bool.noConfusion
  have hshown := shown_of_specification hfield (hname piece hpiece field hfield) hy hc
  obtain ⟨shown, hmem_texts, hshown'⟩ := mem_of_mapM htexts hpiece
  obtain rfl := Option.some.inj (hshown.symm.trans hshown')
  -- Without a precision nothing is cut off.
  have hcut : Spec.cut { spec with fill := c } token = token :=
    Spec.cut_eq fun p hp => nomatch hwhole.symm.trans hp
  calc token = Spec.cut { spec with fill := c } token := hcut.symm
    _ <:+: Spec.apply { spec with fill := c } token := Spec.cut_infix _ _
    _ <:+: piece.literal ++ Spec.apply { spec with fill := c } token :=
      (List.suffix_append _ _).isInfix
    _ <:+: texts.flatten := List.infix_of_mem_flatten hmem_texts

/-- The accepted formats that carry every token. -/
theorem carries_iff (h : validateFormat py (.str fmt) = .ok ()) : Carries py fmt ↔ Carrying py fmt := by
  obtain ⟨parts, hparse, hname⟩ := name_of_accepted h
  constructor
  · intro hcarries
    -- Every token is shown, so each field has a specification.
    have hspec : ∀ token, ∀ field ∈ fields fmt, (specification py token field).isSome ∧
        (convert py.toVersion field.conversion token).isSome := by
      intro token field hfield
      obtain ⟨piece, hpiece, hfield⟩ := (mem_fields hparse).mp hfield
      obtain ⟨out, hout, -⟩ := hcarries token
      obtain ⟨σ, spec, shown, hσ, hspec, hshown⟩ :=
        shown_of_rendered hparse hname hout hpiece hfield
      obtain ⟨y, hy, -⟩ := Option.bind_eq_some_iff.mp hshown
      exact ⟨Option.isSome_of_eq_some (Option.bind_eq_some_iff.mpr ⟨σ, hσ, hspec⟩),
        Option.isSome_of_eq_some hy⟩
    have hempty := fun field hfield => (hspec [] field hfield).1
    have hreads := fun field hfield => (hspec (newlines 2) field hfield).1
    exact {
      known := fun field hfield => (hspec [] field hfield).2
      empty := hempty
      reads := hreads
      whole := whole_of_carries hparse hname hempty hreads hcarries }
  · intro hcarrying token
    obtain ⟨texts, hrendered, htexts⟩ := rendered_of_carrying hparse hname hcarrying token
    refine ⟨texts.flatten, hrendered, ?_⟩
    by_cases ht : token = []
    · subst ht
      exact List.nil_infix
    · exact infix_of_carrying hparse hname hcarrying ht htexts

/-- A format whose specifications have no fields carries every token when they are specifications of
strings, and a field that keeps the token has no precision. -/
theorem carrying_iff_of_flat (hflat : ∀ field ∈ fields fmt, chr '\x7b' ∉ field.spec) :
    Carrying py fmt ↔
      (∀ field ∈ fields fmt, (convert py.toVersion field.conversion []).isSome ∧
        (strSpec py.groups field.spec).isSome) ∧
      ∃ field ∈ fields fmt, keeps field.conversion ∧
        ∃ spec, strSpec py.groups field.spec = some spec ∧ spec.precision = none := by
  -- A specification without fields is the same for every token.
  have hspec : ∀ field ∈ fields fmt, ∀ token,
      specification py token field = strSpec py.groups field.spec := by
    intro field hfield token
    unfold specification Field.filled
    rw [if_neg (hflat field hfield)]
    rfl
  constructor
  · intro h
    obtain ⟨field, hfield, hkeeps, spec, hread, hwhole⟩ := h.whole
    rw [hspec field hfield] at hread
    exact ⟨fun field hfield => ⟨h.known field hfield, hspec field hfield [] ▸ h.empty field hfield⟩,
      field, hfield, hkeeps, spec, hread, hwhole⟩
  · rintro ⟨hall, field, hfield, hkeeps, spec, hread, hwhole⟩
    have hsome : ∀ token, ∀ field ∈ fields fmt, (specification py token field).isSome :=
      fun token field hfield => hspec field hfield token ▸ (hall field hfield).2
    exact {
      known := fun field hfield => (hall field hfield).1
      empty := hsome []
      reads := hsome (newlines 2)
      whole := ⟨field, hfield, hkeeps, spec, (hspec field hfield _).trans hread, hwhole⟩ }

end

/-! ## Headers -/

/-- The value of a header in the configuration. -/
inductive HeaderValue
  | str (value : Text)
  | lazyEnv (name : Text)

/-- `TokenProvider`, as far as headers are concerned. -/
structure TokenProvider where
  header : Text := text "Authorization"
  format : Text := text "Bearer \x7btoken\x7d"

/-- `SmokeTest`, as far as headers are concerned, with the `id` of its provider. -/
structure SmokeTest where
  headers : List (Text × HeaderValue) := []
  tokenProvider : Option (ℕ × TokenProvider) := none

/-- What `materialize_test_headers` raises. -/
inductive Failure
  /-- `LazyEnv.resolve`, of a variable that is not set. -/
  | unset (name : Text)
  /-- The `DeploymentError` of `TokenProvider.resolve`. -/
  | deployment
  /-- An exception of `str.format`. -/
  | format

/-- What is outside, in states of type `W`. -/
structure Outside (W : Type) where
  environ : Text → Option Text
  /-- `TokenProvider.resolve` of the provider that has the `id`. -/
  resolve : ℕ → W → Except Failure (Text × W)

section

variable {W : Type} (outside : Outside W)

/-- `to_str`. -/
def toStr : HeaderValue → Except Failure Text
  | .str value => .ok value
  | .lazyEnv name => (outside.environ name).elim (.error (.unset name)) .ok

/-- The token of a provider, and the cache, in which it is afterwards. -/
def tokenOf (id : ℕ) (cache : List (ℕ × Text)) (w : W) :
    Except Failure (Text × List (ℕ × Text) × W) :=
  match cache.lookup id with
  | some token => .ok (token, cache, w)
  | none => do
    let (token, w) ← outside.resolve id w
    return (token, put id token cache, w)

/-- `materialize_test_headers`: the headers of each test, and the state afterwards. -/
def materialize : List (ℕ × Text) → W → List SmokeTest →
    Except Failure (List (List (Text × Text)) × W)
  | _, w, [] => .ok ([], w)
  | cache, w, test :: tests => do
    let staticHeaders ← test.headers.mapM fun header => (header.1, ·) <$> toStr outside header.2
    match test.tokenProvider with
    | none =>
      let (materialized, w) ← materialize cache w tests
      return (staticHeaders :: materialized, w)
    | some (id, provider) =>
      let (token, cache, w) ← tokenOf outside id cache w
      let rendered ← (rendered py provider.format token).elim (.error .format) .ok
      let (materialized, w) ← materialize cache w tests
      return (put provider.header rendered staticHeaders :: materialized, w)

/-- `resolve` gave the token. -/
def Resolved (entry : ℕ × Text) : Prop := ∃ w w', outside.resolve entry.1 w = .ok (entry.2, w')

/-- The header of a test has a token of its provider, if it has the format. -/
def Sent (fmt : Text) (test : SmokeTest) (headers : List (Text × Text)) : Prop :=
  ∀ id provider, test.tokenProvider = some (id, provider) → provider.format = fmt →
    ∃ token value, Resolved outside (id, token) ∧ headers.lookup provider.header = some value ∧
      token <:+: value

end

/-- No header is sent from which a token is missing or cut by the format. -/
def Sends (fmt : Text) : Prop := ∀ (W : Type) (outside : Outside W) (w w' : W)
  (tests : List SmokeTest) (sent : List (List (Text × Text))),
  materialize py outside [] w tests = .ok (sent, w') → List.Forall₂ (Sent outside fmt) tests sent

section

variable {py} {W : Type} {outside : Outside W} {w w' : W} {cache cache' : List (ℕ × Text)}
  {token fmt : Text} {tests : List SmokeTest} {sent : List (List (Text × Text))} {id : ℕ}

/-- The token is one that `resolve` gave, and so is what is in the cache afterwards. -/
theorem resolved_of_tokenOf (hcache : ∀ entry ∈ cache, Resolved outside entry)
    (h : tokenOf outside id cache w = .ok (token, cache', w')) :
    Resolved outside (id, token) ∧ ∀ entry ∈ cache', Resolved outside entry := by
  unfold tokenOf at h
  -- The token was in the cache, or is resolved and put there.
  split at h
  · next hlookup =>
    obtain ⟨rfl, rfl, -⟩ : _ = token ∧ cache = cache' ∧ _ := by simpa using h
    exact ⟨hcache _ (mem_of_lookup hlookup), hcache⟩
  · obtain ⟨⟨token', w''⟩, hresolve, h⟩ := bind_ok_iff.mp h
    obtain ⟨rfl, rfl, -⟩ : token' = token ∧ put id token' cache = cache' ∧ _ := by
      simpa [pure, Except.pure] using h
    have hnew : Resolved outside (id, token') := ⟨w, w'', hresolve⟩
    refine ⟨hnew, fun entry hentry => ?_⟩
    rcases eq_or_mem_of_mem_put hentry with rfl | hentry
    · exact hnew
    · exact hcache entry hentry

/-- Where a format carries every token, the headers that it makes have theirs. -/
theorem sent_of_carries (hcarries : Carries py fmt) (hcache : ∀ entry ∈ cache, Resolved outside entry)
    (h : materialize py outside cache w tests = .ok (sent, w')) :
    List.Forall₂ (Sent outside fmt) tests sent := by
  -- Induction on the tests, with the tokens that were fetched.
  induction tests generalizing cache w sent with
  | nil =>
    obtain ⟨rfl, -⟩ : [] = sent ∧ _ := by simpa [materialize] using h
    exact .nil
  | cons test tests ih =>
    rw [materialize] at h
    obtain ⟨staticHeaders, hstatic, h⟩ := bind_ok_iff.mp h
    cases hprovider : test.tokenProvider with
    | none =>
      rw [hprovider] at h
      obtain ⟨⟨materialized, w''⟩, hrest, h⟩ := bind_ok_iff.mp h
      obtain ⟨rfl, rfl⟩ : staticHeaders :: materialized = sent ∧ w'' = w' := by
        simpa [pure, Except.pure] using h
      exact .cons (fun id provider hsome => nomatch hprovider.symm.trans hsome) (ih hcache hrest)
    | some entry =>
      obtain ⟨id, provider⟩ := entry
      rw [hprovider] at h
      obtain ⟨⟨token, cache', w₁⟩, htoken, h⟩ := bind_ok_iff.mp h
      obtain ⟨value, hvalue, h⟩ := bind_ok_iff.mp h
      obtain ⟨⟨materialized, w₂⟩, hrest, h⟩ := bind_ok_iff.mp h
      obtain ⟨rfl, rfl⟩ : put provider.header value staticHeaders :: materialized = sent ∧
          w₂ = w' := by simpa [pure, Except.pure] using h
      obtain ⟨hresolved, hcache'⟩ := resolved_of_tokenOf hcache htoken
      refine .cons ?_ (ih hcache' hrest)
      intro id' provider' hsome hfmt
      obtain ⟨rfl, rfl⟩ : id = id' ∧ provider = provider' := by
        simpa using hprovider.symm.trans hsome
      subst hfmt
      obtain ⟨out, hout, hinfix⟩ := hcarries token
      rw [hout] at hvalue
      obtain rfl := Except.ok.inj hvalue
      exact ⟨token, out, hresolved, lookup_put_self _ _ _, hinfix⟩

/-- Which of the accepted formats carry every token, into headers too. -/
theorem carries_and_sends_iff (h : validateFormat py (.str fmt) = .ok ()) :
    Carries py fmt ∧ Sends py fmt ↔ Carrying py fmt := by
  constructor
  · intro hboth
    exact (carries_iff h).mp hboth.1
  · intro hcarrying
    have hcarries := (carries_iff h).mpr hcarrying
    exact ⟨hcarries, fun W outside w w' tests sent hsent =>
      sent_of_carries hcarries (List.forall_mem_nil _) hsent⟩

end

/-- An interpreter, for formats that reach for nothing. -/
def plainPython : Python where
  isPrintable c := 0xA0 < c.val
  groups := false
  reach _ := .raises

/-- The format that is taken when there is none. -/
theorem default_carries : Carries plainPython (text "Bearer \x7btoken\x7d") ∧
    Sends plainPython (text "Bearer \x7btoken\x7d") :=
  (carries_and_sends_iff (by decide)).mpr {
    known := by decide
    empty := by decide
    reads := by decide
    whole := ⟨{ name := text "token" }, by decide, rfl, _, rfl, rfl⟩ }

/-- A precision cuts the token, and is accepted. -/
theorem precision_cuts : ¬ ∀ fmt, validateFormat plainPython (.str fmt) = .ok () →
    Carries plainPython fmt := by
  intro h
  obtain ⟨out, hout, hinfix⟩ := h (text "Bearer \x7btoken:.3\x7d") (by decide) (text "s3cr3t")
  have hcut : rendered plainPython (text "Bearer \x7btoken:.3\x7d") (text "s3cr3t") =
      some (text "Bearer s3c") := by decide
  obtain rfl := Option.some.inj (hcut.symm.trans hout)
  exact absurd hinfix (by decide)

end Fraisier.TokenProviders
