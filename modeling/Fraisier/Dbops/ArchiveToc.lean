import Mathlib.Data.Char
import Mathlib.Data.List.Lex
import Mathlib.Data.List.Sort
import Fraisier.Lib.Decimal
import Fraisier.Lib.Lines
import Fraisier.Lib.Lookup
import Fraisier.Lib.Partition
import Fraisier.Lib.Words
import Fraisier.Backup.Dump

/-!
# The table of contents of an archive

`dbops/archive.py` lists an archive by `pg_restore --list` and reads the list: how many `TABLE DATA`
entries each schema has, and which tables there are. An entry is a line
`dumpId; catalogId oid TAG SCHEMA NAME OWNER`, in which names stand without quotes.

So the list does not say where a schema ends and a name begins, and no reader can tell
(`not_readExactly`). What is read of an entry is the words that are printed of its schema and name
(`reads_words_iff`), and this is the schema and the name where no other cut of the line is possible.
-/

namespace Fraisier.Dbops.ArchiveToc

open Fraisier.Lib Str
open Fraisier.Backup (ArchiveVerdict)

/-! ## The list -/

/-- A name in PostgreSQL, without line breaks: those that `str.splitlines` knows. -/
def IsIdentifier (s : Str) : Prop := s ≠ [] ∧ ∀ c ∈ s, isLineBreak c = false

/-- An entry of an archive. -/
structure Entry where
  dumpId : ℕ
  catalogId : ℕ
  oid : ℕ
  /-- The words of the tag. -/
  tag : List Str
  schema : Str
  name : Str
  owner : Str
  tag_ne : tag ≠ []
  tag_word : ∀ w ∈ tag, IsWord w
  schema_name : IsIdentifier schema
  name_name : IsIdentifier name
  owner_word : IsWord owner

/-- A line of the list. -/
inductive Line where
  | blank
  | comment (text : Str) (h : ∀ c ∈ text, isLineBreak c = false)
  | entry (e : Entry)

/-- An entry as it is printed. -/
def Entry.text (e : Entry) : Str :=
  Nat.toDigits 10 e.dumpId ++ ';' :: ' ' ::
    unwords [Nat.toDigits 10 e.catalogId, Nat.toDigits 10 e.oid, unwords e.tag, e.schema, e.name,
      e.owner]

/-- A line as it is printed. -/
def Line.text : Line → Str
  | .blank => []
  | .comment text _ => ';' :: text
  | .entry e => e.text

/-- What `pg_restore --list` prints. -/
def listing (lines : List Line) : Str := lines.flatMap fun line => line.text ++ ['\n']

/-- The entries of the list. -/
def entriesOf (lines : List Line) : List Entry := lines.filterMap fun line => match line with
  | .entry e => some e
  | _ => none

/-! ## The reader -/

/-- `_TAG_INDEX`. -/
def tagIndex : ℕ := 2

/-- `_MIN_ENTRY_FIELDS`. -/
def minEntryFields : ℕ := 6

def tableWord : Str := "TABLE".toList

def dataWord : Str := "DATA".toList

/-- `_Toc`. -/
structure Toc where
  tableDataBySchema : List (Str × ℕ)
  tables : List Str
  tableData : List Str
  deriving DecidableEq

/-- The fields of a line, unless the loop of `_read_toc` goes on to the next one. -/
def entryFields (raw : Str) : Option (List Str) :=
  let line := strip raw
  if line.isEmpty || line.startsWith [';'] then none
  else
    let (dumpId, sep, rest) := partition ';' line
    if !sep || !(strip dumpId).allDigits then none
    else if rest.fields.length < minEntryFields then none
    else some rest.fields

/-- One turn of the loop of `_read_toc`. -/
def readLine (toc : Toc) (raw : Str) : Toc :=
  match entryFields raw with
  | none => toc
  | some fields =>
    if (fields.drop tagIndex).take 2 = [tableWord, dataWord] then
      -- there are at least six fields
      let schema := fields.getD (tagIndex + 2) []
      { toc with
        tableDataBySchema :=
          put schema ((toc.tableDataBySchema.lookup schema).getD 0 + 1) toc.tableDataBySchema
        tableData := toc.tableData ++ [unwords (fields.drop (tagIndex + 2)).dropLast] }
    else if fields.getD tagIndex [] = tableWord then
      { toc with tables := toc.tables ++ [unwords (fields.drop (tagIndex + 1)).dropLast] }
    else toc

/-- `_read_toc`. -/
def readToc (toc : Str) : Toc := (splitlines toc).foldl readLine ⟨[], [], []⟩

/-! ## The check -/

/-- `ArchiveCheck`. -/
structure ArchiveCheck where
  verdict : ArchiveVerdict
  detail : Str
  tableDataBySchema : List (Str × ℕ) := []
  tableEntries : Option (List Str) := none
  tableDataEntries : Option (List Str) := none

/-- `_has_entry`. -/
def hasEntry (entries : Option (List Str)) (schema name : Str) : Bool :=
  (entries.getD []).contains (schema ++ ' ' :: name)

namespace ArchiveCheck

variable (check : ArchiveCheck)

/-- `has_table`. -/
def hasTable (schema name : Str) : Bool := hasEntry check.tableEntries schema name

/-- `has_table_data`. -/
def hasTableData (schema name : Str) : Bool := hasEntry check.tableDataEntries schema name

/-- `(-self.table_data_by_schema[s], s)` of the one is below that of the other. -/
def before (s least : Str × ℕ) : Bool := least.2 < s.2 || s.2 = least.2 && decide (s.1 < least.1)

/-- `schema_floor`. -/
def schemaFloor : Option (Str × ℕ) :=
  match check.tableDataBySchema with
  | [] => none
  | first :: rest => some (rest.foldl (fun least s => if before s least then s else least) first)

end ArchiveCheck

/-- What comes of listing the archive. -/
inductive Listing where
  | absent
  | noTool
  | timeout
  | exited (code : ℤ) (stdout stderr : Str)

/-- `_LIST_TIMEOUT_SECONDS`. -/
def listTimeoutSeconds : ℕ := 60

/-- `verify_archive`. -/
def verifyArchive (target : Str) : Listing → ArchiveCheck
  | .absent =>
    ⟨.unverifiable, target ++ " does not exist — nothing to verify".toList, [], none, none⟩
  | .noTool => ⟨.unverifiable, ("pg_restore not found on PATH — install the PostgreSQL client " ++
      "tools to verify dumps on this host").toList, [], none, none⟩
  | .timeout => ⟨.unverifiable, "pg_restore --list on ".toList ++ target ++
      " did not finish within ".toList ++ Nat.toDigits 10 listTimeoutSeconds ++ ['s'],
      [], none, none⟩
  | .exited code stdout stderr =>
    if code ≠ 0 then
      let output := strip (if stderr.isEmpty then stdout else stderr)
      ⟨.invalid, if output.isEmpty then "pg_restore --list exited with code ".toList ++
        (toString code).toList else output, [], none, none⟩
    else
      let toc := readToc stdout
      ⟨.valid, [], toc.tableDataBySchema, some toc.tables, some toc.tableData⟩

/-! ## What the list says -/

def tableTag : List Str := [tableWord]

def tableDataTag : List Str := [tableWord, dataWord]

namespace Entry

variable (e : Entry)

/-- What is printed of the schema and the name. -/
def title : Str := e.schema ++ ' ' :: e.name

/-- The words that are printed of the schema and the name. -/
def words : List Str := fields e.schema ++ fields e.name

/-- The words that follow the ids are not those of another tag: `TABLE ATTACH` begins as `TABLE`
does, and a table in a schema `DATA` goes on as `TABLE DATA` does. -/
structure Told : Prop where
  tag : e.tag.head? = some tableWord → e.tag = tableTag ∨ e.tag = tableDataTag
  schema : e.tag = tableTag → e.words.head? ≠ some dataWord

end Entry

/-- A number of entries, where there are any. -/
def numbered (n : ℕ) : Option ℕ := if n = 0 then none else some n

/-- The check has the entries of the list by their schemas and names. -/
structure ReadExactly (check : ArchiveCheck) (entries : List Entry) : Prop where
  counted : ∀ s, check.tableDataBySchema.lookup s =
    numbered (entries.countP fun e => e.tag = tableDataTag ∧ e.schema = s)
  table : ∀ s n, check.hasTable s n = true ↔
    ∃ e ∈ entries, e.tag = tableTag ∧ e.schema = s ∧ e.name = n
  tableData : ∀ s n, check.hasTableData s n = true ↔
    ∃ e ∈ entries, e.tag = tableDataTag ∧ e.schema = s ∧ e.name = n

/-- The check has the entries of the list by the words that are printed. -/
structure ReadByWords (check : ArchiveCheck) (entries : List Entry) : Prop where
  nodup : (check.tableDataBySchema.map Prod.fst).Nodup
  counted : ∀ w, check.tableDataBySchema.lookup w =
    numbered (entries.countP fun e => e.tag = tableDataTag ∧ e.words.head? = some w)
  table : ∀ s n, check.hasTable s n = true ↔
    ∃ e ∈ entries, e.tag = tableTag ∧ unwords e.words = s ++ ' ' :: n
  tableData : ∀ s n, check.hasTableData s n = true ↔
    ∃ e ∈ entries, e.tag = tableDataTag ∧ unwords e.words = s ++ ' ' :: n

/-- The schema and the name of a `TABLE DATA` entry are words, and a `TABLE` entry is printed with
single blanks, at each of which a cut gives a table of the list. -/
structure Unambiguous (entries : List Entry) : Prop where
  tableData : ∀ e ∈ entries, e.tag = tableDataTag → IsWord e.schema ∧ IsWord e.name
  blanks : ∀ e ∈ entries, e.tag = tableTag → unwords e.words = e.title
  cuts : ∀ e ∈ entries, e.tag = tableTag → ∀ s n, s ++ ' ' :: n = e.title →
    ∃ o ∈ entries, o.tag = tableTag ∧ o.schema = s ∧ o.name = n

/-! ## A line -/

variable {e : Entry} {entries : List Entry} {toc : Toc}

/-- The digits of a number are a word. -/
theorem isWord_toDigits (n : ℕ) : IsWord (Nat.toDigits 10 n) :=
  ⟨Nat.toDigits_ne_nil, fun _ hc =>
    not_isSpace_of_isDigit (Nat.isDigit_of_mem_toDigits (by decide) (by decide) hc)⟩

namespace Entry

/-- An entry's title falls into words. -/
theorem isWord_of_mem_words {w : Str} (h : w ∈ e.words) : IsWord w :=
  (List.mem_append.mp h).elim isWord_of_mem_fields isWord_of_mem_fields

/-- The words of an entry are the fields of its title. -/
theorem words_eq (e : Entry) : e.words = fields e.title := (fields_append isSpace_blank _ _).symm

/-- An entry's line has no blank at either end. -/
theorem strip_text (e : Entry) : strip e.text = e.text := by
  have hends : e.text = Nat.toDigits 10 e.dumpId ++ ((';' :: ' ' :: (Nat.toDigits 10 e.catalogId ++
      ' ' :: (Nat.toDigits 10 e.oid ++ ' ' :: (unwords e.tag ++ ' ' :: (e.title ++ [' ']))))) ++
        e.owner) := by
    simp [text, title, unwords_cons_cons, unwords_singleton]
  rw [hends]
  exact strip_between (isWord_toDigits e.dumpId) e.owner_word _

/-- The fields of an entry: its ids, the words of its tag, of its schema and of its name, and the
owner. -/
theorem entryFields_text (e : Entry) : entryFields e.text =
    if e.tag.length + e.words.length < 3 then none
    else some (Nat.toDigits 10 e.catalogId :: Nat.toDigits 10 e.oid ::
      (e.tag ++ (e.words ++ [e.owner]))) := by
  -- The first word is the number before the semicolon.
  have hid := isWord_toDigits e.dumpId
  have hsemi : ';' ∉ Nat.toDigits 10 e.dumpId := fun hmem =>
    absurd (Nat.isDigit_of_mem_toDigits (by decide) (by decide) hmem) (by decide)
  obtain ⟨c, digits, hdigits⟩ := List.exists_cons_of_ne_nil hid.1
  have hempty : e.text.isEmpty = false := by
    rw [text, hdigits]
    rfl
  have hstart : e.text.startsWith [';'] = false := by
    have hc : ';' ≠ c := by
      rintro rfl
      exact hsemi (by rw [hdigits]; exact List.mem_cons_self)
    rw [text, hdigits, List.cons_append, startsWith, List.isPrefixOf_cons_cons, beq_false_of_ne hc,
      Bool.false_and]
  -- What follows the semicolon falls into the words of the title.
  have hfields : fields (' ' :: unwords [Nat.toDigits 10 e.catalogId, Nat.toDigits 10 e.oid,
      unwords e.tag, e.schema, e.name, e.owner]) =
        Nat.toDigits 10 e.catalogId :: Nat.toDigits 10 e.oid ::
          (e.tag ++ (e.words ++ [e.owner])) := by
    rw [show ∀ s, ' ' :: s = [] ++ ' ' :: s from fun _ => rfl, fields_append isSpace_blank,
      fields_unwords]
    have hnil : fields [] = [] := rfl
    simp only [List.flatMap_cons, List.flatMap_nil, fields_word (isWord_toDigits _),
      fields_unwords_of_isWord e.tag_word, fields_word e.owner_word, words, hnil, List.nil_append,
      List.singleton_append, List.append_assoc, List.append_nil]
  unfold entryFields
  dsimp only
  rw [strip_text, hempty, hstart, text, partition_append_cons hsemi, hfields]
  dsimp only
  -- The words are enough for an entry when the tag and the title have three.
  have hlength : (Nat.toDigits 10 e.catalogId :: Nat.toDigits 10 e.oid ::
      (e.tag ++ (e.words ++ [e.owner]))).length < minEntryFields ↔
        e.tag.length + e.words.length < 3 := by
    simp only [minEntryFields, List.length_cons, List.length_append, List.length_nil]
    omega
  rw [strip_word hid, allDigits_toDigits, if_neg (by decide), if_neg (by decide)]
  exact if_congr hlength rfl rfl

end Entry

/-! ## What a line adds -/

/-- What is no entry leaves the table of contents as it is. -/
theorem readLine_of_none {raw : Str} (h : entryFields raw = none) : readLine toc raw = toc := by
  rw [readLine, h]

/-- An empty line leaves the table of contents as it is. -/
theorem readLine_blank : readLine toc [] = toc := readLine_of_none rfl

/-- A comment leaves the table of contents as it is. -/
theorem readLine_comment (text : Str) : readLine toc (';' :: text) = toc := by
  refine readLine_of_none ?_
  obtain ⟨rest, hstrip⟩ := stripBy_cons (p := isSpace) (c := ';') (by decide) text
  rw [entryFields, strip, hstrip]
  rfl

/-- A `TABLE DATA` entry is counted under the first word that is printed after the tag. -/
theorem readLine_tableData (htag : e.tag = tableDataTag) {w : Str} {ws : List Str}
    (hwords : e.words = w :: ws) : readLine toc e.text =
      { toc with
        tableDataBySchema :=
          put w ((toc.tableDataBySchema.lookup w).getD 0 + 1) toc.tableDataBySchema
        tableData := toc.tableData ++ [unwords e.words] } := by
  -- The fields of the line are those of the entry, with the owner last.
  have hfields : entryFields e.text = some (Nat.toDigits 10 e.catalogId :: Nat.toDigits 10 e.oid ::
      tableWord :: dataWord :: (w :: ws ++ [e.owner])) := by
    have hthree : ¬e.tag.length + e.words.length < 3 := by
      rw [htag, hwords, tableDataTag, List.length_cons, List.length_cons]
      simp only [List.length_cons]
      omega
    rw [e.entryFields_text, if_neg hthree, htag, hwords]
    rfl
  have hrest : (w :: ws ++ [e.owner]).dropLast = e.words := by rw [List.dropLast_concat, hwords]
  rw [readLine, hfields, ← hrest]
  exact if_pos rfl

/-- The line of a table adds the words of its title. -/
theorem readLine_table (htag : e.tag = tableTag) (hlength : 2 ≤ e.words.length)
    (hdata : e.words.head? ≠ some dataWord) :
    readLine toc e.text = { toc with tables := toc.tables ++ [unwords e.words] } := by
  obtain ⟨w, ws, hwords⟩ := List.exists_cons_of_length_pos (show 0 < e.words.length by omega)
  have hw : w ≠ dataWord := by
    rintro rfl
    exact hdata (by rw [hwords]; rfl)
  have hfields : entryFields e.text = some (Nat.toDigits 10 e.catalogId :: Nat.toDigits 10 e.oid ::
      tableWord :: (w :: ws ++ [e.owner])) := by
    have hthree : ¬e.tag.length + e.words.length < 3 := by
      rw [htag, tableTag, List.length_singleton]
      omega
    rw [e.entryFields_text, if_neg hthree, htag, hwords]
    rfl
  have hrest : (w :: ws ++ [e.owner]).dropLast = e.words := by rw [List.dropLast_concat, hwords]
  -- A title that begins with the other word would be that of the data.
  have hnot : [tableWord, w] ≠ [tableWord, dataWord] := fun heq =>
    hw (List.cons.inj (List.cons.inj heq).2).1
  rw [readLine, hfields, ← hrest]
  exact (if_neg hnot).trans (if_pos rfl)

/-- An entry that is printed with another tag, or with too few words, adds nothing. -/
theorem readLine_other (h : e.tag.head? = some tableWord → e.tag.length + e.words.length < 3) :
    readLine toc e.text = toc := by
  by_cases hlength : e.tag.length + e.words.length < 3
  · exact readLine_of_none (by rw [e.entryFields_text, if_pos hlength])
  · obtain ⟨t, tag, htag⟩ := List.exists_cons_of_ne_nil e.tag_ne
    have ht : t ≠ tableWord := by
      rintro rfl
      exact hlength (h (by rw [htag]; rfl))
    rw [readLine, e.entryFields_text, if_neg hlength, htag]
    exact (if_neg fun heq => ht (List.cons.inj heq).1).trans (if_neg ht)

/-- What the loop has, after these entries. -/
structure Reads (toc : Toc) (entries : List Entry) : Prop where
  nodup : (toc.tableDataBySchema.map Prod.fst).Nodup
  counted : ∀ w, toc.tableDataBySchema.lookup w =
    numbered (entries.countP fun e => e.tag = tableDataTag ∧ e.words.head? = some w)
  tables : ∀ t, t ∈ toc.tables ↔
    ∃ e ∈ entries, e.tag = tableTag ∧ 2 ≤ e.words.length ∧ unwords e.words = t
  tableData : ∀ t, t ∈ toc.tableData ↔
    ∃ e ∈ entries, e.tag = tableDataTag ∧ e.words ≠ [] ∧ unwords e.words = t

/-- The number printed for a stated count is the count. -/
theorem getD_numbered (n : ℕ) : (numbered n).getD 0 = n := by
  unfold numbered
  split_ifs with h
  · exact h.symm
  · rfl

/-- What one of the entries has, an earlier one or the last one has. -/
theorem exists_mem_concat {p : Entry → Prop} :
    (∃ o ∈ entries ++ [e], p o) ↔ (∃ o ∈ entries, p o) ∨ p e := by
  simp only [List.mem_append, List.mem_singleton, or_and_right, exists_or, exists_eq_left]

/-- One more entry is counted, or not. -/
theorem numbered_concat (p : Entry → Prop) [DecidablePred p] :
    numbered ((entries ++ [e]).countP p) =
      if p e then some (entries.countP p + 1) else numbered (entries.countP p) := by
  rw [List.countP_append, List.countP_singleton]
  by_cases h : p e
  · rw [if_pos (decide_eq_true h), if_pos h]
    rfl
  · rw [if_neg (by simpa using h), if_neg h, Nat.add_zero]

/-- What one line adds: an entry whose words can be told is kept as what it is. -/
theorem Reads.step (h : Reads toc entries) (htold : e.Told) :
    Reads (readLine toc e.text) (entries ++ [e]) := by
  have hother : tableTag ≠ tableDataTag := by simp [tableTag, tableDataTag]
  -- A line of table data counts for its schema.
  by_cases hdata : e.tag = tableDataTag ∧ e.words ≠ []
  · obtain ⟨htag, hne⟩ := hdata
    obtain ⟨w, ws, hwords⟩ := List.exists_cons_of_ne_nil hne
    rw [readLine_tableData htag hwords]
    refine ⟨nodup_put h.nodup, fun v => ?_, fun t => ?_, fun t => ?_⟩
    · rw [numbered_concat]
      by_cases hv : v = w
      · rw [hv, if_pos ⟨htag, by rw [hwords]; rfl⟩]
        dsimp only
        rw [lookup_put_self, h.counted w, getD_numbered]
      · have hhead : e.words.head? ≠ some v := by
          rw [hwords]
          exact fun heq => hv (Option.some.inj heq).symm
        rw [if_neg fun hp => hhead hp.2, ← h.counted v]
        exact lookup_put_of_ne hv _
    · rw [exists_mem_concat, ← h.tables t]
      exact (or_iff_left fun hp => hother (hp.1.symm.trans htag)).symm
    · rw [exists_mem_concat, ← h.tableData t, List.mem_append, List.mem_singleton]
      exact or_congr_right ⟨fun ht => ⟨htag, hne, ht.symm⟩, fun hp => hp.2.2.symm⟩
  -- No other line counts.
  have hnodata : ∀ t, ¬(e.tag = tableDataTag ∧ e.words ≠ [] ∧ unwords e.words = t) :=
    fun t hp => hdata ⟨hp.1, hp.2.1⟩
  have hnocount : ∀ w, ¬(e.tag = tableDataTag ∧ e.words.head? = some w) := by
    rintro w ⟨htag, hw⟩
    exact hdata ⟨htag, fun hnil => by simp [hnil] at hw⟩
  -- A line of a table adds the table.
  by_cases htable : e.tag = tableTag ∧ 2 ≤ e.words.length
  · obtain ⟨htag, hlength⟩ := htable
    rw [readLine_table htag hlength (htold.schema htag)]
    refine ⟨h.nodup, fun v => ?_, fun t => ?_, fun t => ?_⟩
    · rw [numbered_concat, if_neg (hnocount v)]
      exact h.counted v
    · rw [exists_mem_concat, ← h.tables t, List.mem_append, List.mem_singleton]
      exact or_congr_right ⟨fun ht => ⟨htag, hlength, ht.symm⟩, fun hp => hp.2.2.symm⟩
    · rw [exists_mem_concat, ← h.tableData t]
      exact (or_iff_left (hnodata t)).symm
  -- Every other line is passed over.
  · have hshort : e.tag.head? = some tableWord → e.tag.length + e.words.length < 3 := by
      intro hhead
      rcases htold.tag hhead with htag | htag
      · have hlength : ¬2 ≤ e.words.length := fun hlength => htable ⟨htag, hlength⟩
        rw [htag, tableTag, List.length_singleton]
        omega
      · have hnil : e.words = [] := by_contra fun hne => hdata ⟨htag, hne⟩
        rw [htag, hnil]
        decide
    rw [readLine_other hshort]
    refine ⟨h.nodup, fun v => ?_, fun t => ?_, fun t => ?_⟩
    · rw [numbered_concat, if_neg (hnocount v)]
      exact h.counted v
    · rw [exists_mem_concat, ← h.tables t]
      exact (or_iff_left fun hp => htable ⟨hp.1, hp.2.1⟩).symm
    · rw [exists_mem_concat, ← h.tableData t]
      exact (or_iff_left (hnodata t)).symm

/-! ## The list as a whole -/

/-- Reading the lines one by one keeps what has been read in step with the entries. -/
theorem Reads.foldl {lines : List Line} (h : Reads toc entries)
    (htold : ∀ e ∈ entriesOf lines, e.Told) :
    Reads ((lines.map Line.text).foldl readLine toc) (entries ++ entriesOf lines) := by
  -- Induction on the lines, only some of which are entries.
  induction lines generalizing toc entries with
  | nil => rwa [entriesOf, List.filterMap_nil, List.append_nil]
  | cons line lines ih =>
    cases line with
    | blank =>
      rw [List.map_cons, List.foldl_cons, Line.text, readLine_blank]
      exact ih h htold
    | comment text hbreak =>
      rw [List.map_cons, List.foldl_cons, Line.text, readLine_comment]
      exact ih h htold
    | entry e =>
      have hcons : entriesOf (.entry e :: lines) = e :: entriesOf lines := rfl
      rw [hcons] at htold ⊢
      rw [List.map_cons, List.foldl_cons, Line.text, List.append_cons]
      exact ih (h.step (htold e List.mem_cons_self)) fun o ho => htold o (List.mem_cons_of_mem e ho)

/-- A word holds no line break. -/
theorem IsWord.noBreak {w : Str} (h : IsWord w) : ∀ c ∈ w, isLineBreak c = false := by
  intro c hc
  cases hbreak : isLineBreak c with
  | false => rfl
  | true =>
    have hspace := isSpace_of_isLineBreak hbreak
    rw [h.2 c hc] at hspace
    exact absurd hspace Bool.false_ne_true

/-- Words put together on a line hold no line break. -/
theorem noBreak_unwords {texts : List Str} (h : ∀ s ∈ texts, ∀ c ∈ s, isLineBreak c = false) :
    ∀ c ∈ unwords texts, isLineBreak c = false := by
  intro c hc
  rcases mem_unwords hc with rfl | ⟨s, hs, hc⟩
  · decide
  · exact h s hs c hc

/-- The text of a line holds no line break. -/
theorem Line.noBreak (line : Line) : ∀ c ∈ line.text, isLineBreak c = false := by
  cases line with
  | blank => exact nofun
  | comment text h =>
    intro c hc
    rcases List.mem_cons.mp hc with rfl | hc
    · decide
    · exact h c hc
  | entry e =>
    -- Each word of an entry's line is free of breaks.
    have hdigits : ∀ n, ∀ c ∈ Nat.toDigits 10 n, isLineBreak c = false := fun n =>
      IsWord.noBreak (isWord_toDigits n)
    have htag : ∀ c ∈ unwords e.tag, isLineBreak c = false :=
      noBreak_unwords fun w hw => IsWord.noBreak (e.tag_word w hw)
    have hparts : ∀ s ∈ [Nat.toDigits 10 e.catalogId, Nat.toDigits 10 e.oid, unwords e.tag, e.schema,
        e.name, e.owner], ∀ c ∈ s, isLineBreak c = false := by
      simp only [List.forall_mem_cons]
      exact ⟨hdigits _, hdigits _, htag, e.schema_name.2, e.name_name.2,
        IsWord.noBreak e.owner_word, nofun⟩
    have hrest := noBreak_unwords hparts
    intro c hc
    rcases List.mem_append.mp hc with hc | hc
    · exact hdigits _ c hc
    · rcases List.mem_cons.mp hc with rfl | hc
      · decide
      · rcases List.mem_cons.mp hc with rfl | hc
        · decide
        · exact hrest c hc

/-- A listing splits into the texts of its lines. -/
theorem splitlines_listing (lines : List Line) :
    splitlines (listing lines) = lines.map Line.text := by
  have hflat : listing lines = (lines.map Line.text).flatMap (· ++ ['\n']) := by
    rw [List.flatMap_map]
    rfl
  rw [hflat, splitlines_flatMap]
  intro text htext
  obtain ⟨line, -, rfl⟩ := List.mem_map.mp htext
  exact line.noBreak

/-- An empty table of contents has read no entry. -/
theorem reads_nil : Reads ⟨[], [], []⟩ [] := by
  refine ⟨List.nodup_nil, fun w => rfl, fun t => ?_, fun t => ?_⟩ <;> simp

/-- The list is read by the words that are printed. -/
theorem readByWords {lines : List Line} (htold : ∀ e ∈ entriesOf lines, e.Told)
    (target stderr : Str) :
    ReadByWords (verifyArchive target (.exited 0 (listing lines) stderr)) (entriesOf lines) := by
  have h : Reads (readToc (listing lines)) (entriesOf lines) := by
    rw [readToc, splitlines_listing]
    exact reads_nil.foldl htold
  have htwo : ∀ {e : Entry} {s n : Str}, unwords e.words = s ++ ' ' :: n → 2 ≤ e.words.length :=
    two_le_of_unwords_eq fun w hw => Entry.isWord_of_mem_words hw
  refine ⟨h.nodup, h.counted, fun s n => ?_, fun s n => ?_⟩
  · refine List.contains_iff_mem.trans ((h.tables _).trans ?_)
    exact ⟨fun ⟨e, he, htag, _, heq⟩ => ⟨e, he, htag, heq⟩,
      fun ⟨e, he, htag, heq⟩ => ⟨e, he, htag, htwo heq, heq⟩⟩
  · refine List.contains_iff_mem.trans ((h.tableData _).trans ?_)
    refine ⟨fun ⟨e, he, htag, _, heq⟩ => ⟨e, he, htag, heq⟩, fun ⟨e, he, htag, heq⟩ =>
      ⟨e, he, htag, List.ne_nil_of_length_pos (by have := htwo heq; omega), heq⟩⟩

/-- A list that is read by the words is read exactly when no other cut is possible. -/
theorem ReadByWords.readExactly_iff {check : ArchiveCheck} (h : ReadByWords check entries) :
    ReadExactly check entries ↔ Unambiguous entries := by
  constructor
  · intro hexact
    have hschema : ∀ e ∈ entries, e.tag = tableDataTag → IsWord e.schema := by
      intro e he htag
      have hpos : 0 < entries.countP fun o => o.tag = tableDataTag ∧ o.schema = e.schema :=
        List.countP_pos_iff.mpr ⟨e, he, by simp [htag]⟩
      have hsome := hexact.counted e.schema
      rw [h.counted e.schema, numbered, numbered, if_neg (Nat.ne_of_gt hpos)] at hsome
      have hfound : 0 < entries.countP fun o =>
          o.tag = tableDataTag ∧ o.words.head? = some e.schema := by
        by_contra hzero
        rw [if_pos (Nat.eq_zero_of_not_pos hzero)] at hsome
        nomatch hsome
      obtain ⟨o, -, ho⟩ := List.countP_pos_iff.mp hfound
      exact Entry.isWord_of_mem_words (List.mem_of_head? (of_decide_eq_true ho).2)
    have hblanks : ∀ e ∈ entries, e.tag = tableTag → unwords e.words = e.title := by
      intro e he htag
      obtain ⟨o, -, -, heq⟩ := (h.table _ _).mp
        ((hexact.table e.schema e.name).mpr ⟨e, he, htag, rfl, rfl⟩)
      rw [e.words_eq]
      exact unwords_fields_of_unwords (fun w hw => o.isWord_of_mem_words hw) heq
    have hname : ∀ e ∈ entries, e.tag = tableDataTag → IsWord e.name := by
      intro e he htag
      obtain ⟨o, ho, hotag, heq⟩ := (h.tableData _ _).mp
        ((hexact.tableData e.schema e.name).mpr ⟨e, he, htag, rfl, rfl⟩)
      refine isWord_of_unwords_fields (hschema e he htag)
        (unwords_fields_of_unwords (fun w hw => o.isWord_of_mem_words hw) heq) fun hblank => ?_
      -- the schema might end at the blank in the name as well
      obtain ⟨s, t, hst, -⟩ := List.eq_append_cons_of_mem hblank
      have hcut : unwords o.words = (e.schema ++ ' ' :: s) ++ ' ' :: t := by
        rw [heq, hst, List.append_assoc, List.cons_append]
      obtain ⟨p, hp, hptag, hpschema, -⟩ := (hexact.tableData _ _).mp
        ((h.tableData _ _).mpr ⟨o, ho, hotag, hcut⟩)
      exact absurd hpschema ((hschema p hp hptag).ne_append e.schema s)
    refine ⟨fun e he htag => ⟨hschema e he htag, hname e he htag⟩, hblanks,
      fun e he htag s n heq => ?_⟩
    have hjoin : unwords e.words = s ++ ' ' :: n := (hblanks e he htag).trans heq.symm
    exact (hexact.table s n).mp ((h.table s n).mpr ⟨e, he, htag, hjoin⟩)
  · intro hclear
    have hwords : ∀ e ∈ entries, e.tag = tableDataTag → e.words = [e.schema, e.name] := by
      intro e he htag
      obtain ⟨hs, hn⟩ := hclear.tableData e he htag
      rw [Entry.words, fields_word hs, fields_word hn, List.singleton_append]
    refine ⟨fun s => ?_, fun s n => ?_, fun s n => ?_⟩
    · rw [h.counted s]
      refine congrArg numbered (List.countP_congr fun e he => ?_)
      simp only [decide_eq_true_eq]
      refine and_congr_right fun htag => ?_
      rw [hwords e he htag, List.head?_cons, Option.some.injEq]
    · rw [h.table s n]
      constructor
      · rintro ⟨e, he, htag, heq⟩
        exact hclear.cuts e he htag s n (heq.symm.trans (hclear.blanks e he htag))
      · rintro ⟨e, he, htag, rfl, rfl⟩
        exact ⟨e, he, htag, hclear.blanks e he htag⟩
    · rw [h.tableData s n]
      refine exists_congr fun e => and_congr_right fun he => and_congr_right fun htag => ?_
      obtain ⟨hs, hn⟩ := hclear.tableData e he htag
      rw [hwords e he htag, unwords_cons_cons, unwords_singleton]
      constructor
      · exact append_blank_inj hs hn
      · rintro ⟨rfl, rfl⟩
        rfl

/-- Where the names are words, no other cut is possible. -/
theorem unambiguous_of_isWord (h : ∀ e ∈ entries, IsWord e.schema ∧ IsWord e.name) :
    Unambiguous entries := by
  refine ⟨fun e he _ => h e he, fun e he _ => ?_, fun e he htag s n heq => ?_⟩
  · obtain ⟨hs, hn⟩ := h e he
    rw [Entry.words, fields_word hs, fields_word hn, List.singleton_append, unwords_cons_cons,
      unwords_singleton]
    rfl
  · obtain ⟨hs, hn⟩ := h e he
    obtain ⟨rfl, rfl⟩ := append_blank_inj hs hn heq.symm
    exact ⟨e, he, htag, rfl, rfl⟩

/-! ## What the list does not say -/

/-- The entry of a table. -/
def tableEntry (schema name : Str) (hschema : IsIdentifier schema) (hname : IsIdentifier name) :
    Entry where
  dumpId := 216
  catalogId := 1259
  oid := 16456
  tag := tableTag
  schema := schema
  name := name
  owner := "postgres".toList
  tag_ne := List.cons_ne_nil _ _
  tag_word := by
    rw [tableTag, List.forall_mem_singleton]
    exact ⟨by decide, forall_of_all (by decide)⟩
  schema_name := hschema
  name_name := hname
  owner_word := ⟨by decide, forall_of_all (by decide)⟩

/-- Of an entry's schema and name the title is printed, and where it is cut is not. -/
theorem Entry.text_eq (e : Entry) : e.text = Nat.toDigits 10 e.dumpId ++ ';' :: ' ' ::
    unwords [Nat.toDigits 10 e.catalogId, Nat.toDigits 10 e.oid, unwords e.tag, e.title,
      e.owner] := by
  simp only [text, title, unwords_cons_cons, unwords_singleton, List.append_assoc, List.cons_append]

/-- The table `c` of the schema `a b`. -/
def spacedSchema : Entry := tableEntry "a b".toList "c".toList
  ⟨by decide, forall_of_all (by decide)⟩ ⟨by decide, forall_of_all (by decide)⟩

/-- The table `b c` of the schema `a`. -/
def spacedName : Entry := tableEntry "a".toList "b c".toList
  ⟨by decide, forall_of_all (by decide)⟩ ⟨by decide, forall_of_all (by decide)⟩

/-- The schema `a` with the table `b c` prints as the schema `a b` with the table `c`. -/
theorem listing_spaced : listing [.entry spacedSchema] = listing [.entry spacedName] := by
  have htext : spacedSchema.text = spacedName.text := by
    rw [Entry.text_eq, Entry.text_eq]
    rfl
  simp only [listing, List.flatMap_cons, Line.text, htext]

/-- No entry is the table `b c` of the schema `a`. -/
theorem not_table_spacedName : ¬∃ e ∈ entriesOf [.entry spacedSchema],
    e.tag = tableTag ∧ e.schema = "a".toList ∧ e.name = "b c".toList := by
  rintro ⟨e, he, -, hschema, -⟩
  obtain rfl : e = spacedSchema := List.mem_singleton.mp he
  exact absurd hschema (by decide)

/-- No reader has the entries of every list by their schemas and names. -/
theorem not_readExactly (reader : Str → ArchiveCheck) :
    ∃ lines, ¬ReadExactly (reader (listing lines)) (entriesOf lines) := by
  by_contra hall
  have hexact := not_exists_not.mp hall
  have htable := ((hexact [.entry spacedName]).table "a".toList "b c".toList).mpr
    ⟨spacedName, List.mem_singleton_self _, rfl, rfl, rfl⟩
  rw [← listing_spaced] at htable
  exact not_table_spacedName (((hexact [.entry spacedSchema]).table _ _).mp htable)

/-! ## The floor -/

/-- The floor is the number of one of the schemas, and none has more. -/
theorem ArchiveCheck.schemaFloor_spec {check : ArchiveCheck} {floor : Str × ℕ}
    (h : check.schemaFloor = some floor) :
    floor ∈ check.tableDataBySchema ∧ ∀ s ∈ check.tableDataBySchema, s.2 ≤ floor.2 := by
  -- Induction on the rest, with the least so far.
  have hleast : ∀ (rest : List (Str × ℕ)) (first : Str × ℕ),
      let floor := rest.foldl (fun least s => if before s least then s else least) first
      floor ∈ first :: rest ∧ ∀ s ∈ first :: rest, s.2 ≤ floor.2 := by
    intro rest
    induction rest with
    | nil => exact fun first => ⟨List.mem_cons_self, by simp⟩
    | cons s rest ih =>
      intro first
      rw [List.foldl_cons]
      by_cases hs : before s first = true
      · rw [if_pos hs]
        obtain ⟨hmem, hmost⟩ := ih s
        have hle : first.2 ≤ s.2 := by
          simp only [before, Bool.or_eq_true, Bool.and_eq_true, decide_eq_true_eq] at hs
          omega
        refine ⟨List.mem_cons_of_mem first hmem, List.forall_mem_cons.mpr ⟨?_, hmost⟩⟩
        exact hle.trans (hmost s List.mem_cons_self)
      · rw [if_neg hs]
        obtain ⟨hmem, hmost⟩ := ih first
        have hle : s.2 ≤ first.2 := by
          simp only [before, Bool.or_eq_true, Bool.and_eq_true, decide_eq_true_eq] at hs
          omega
        rw [List.forall_mem_cons] at hmost
        refine ⟨?_, List.forall_mem_cons.mpr ⟨hmost.1, List.forall_mem_cons.mpr
          ⟨hle.trans hmost.1, hmost.2⟩⟩⟩
        rw [List.mem_cons] at hmem ⊢
        exact hmem.imp_right (List.mem_cons_of_mem s)
  unfold schemaFloor at h
  split at h
  · nomatch h
  · rename_i first rest hcounts
    obtain rfl := Option.some.inj h
    rw [hcounts]
    exact hleast rest first

/-- The floor is how many `TABLE DATA` entries one schema has, and it has the most. -/
theorem ReadByWords.schemaFloor {check : ArchiveCheck} (h : ReadByWords check entries)
    {w : Str} {n : ℕ} (hfloor : check.schemaFloor = some (w, n)) :
    n = (entries.countP fun e => e.tag = tableDataTag ∧ e.words.head? = some w) ∧
      ∀ v, (entries.countP fun e => e.tag = tableDataTag ∧ e.words.head? = some v) ≤ n := by
  obtain ⟨hmem, hmost⟩ := ArchiveCheck.schemaFloor_spec hfloor
  -- The counts are those of the entries: one is reached, and none is greater.
  refine ⟨?_, fun v => ?_⟩
  · have hlookup := (lookup_eq_some_iff_mem h.nodup).mpr hmem
    rw [h.counted w] at hlookup
    rw [← getD_numbered (entries.countP _), hlookup]
    rfl
  · cases hlookup : check.tableDataBySchema.lookup v with
    | none =>
      rw [h.counted v] at hlookup
      rw [← getD_numbered (entries.countP _), hlookup]
      exact Nat.zero_le n
    | some m =>
      have hle := hmost _ (mem_of_lookup hlookup)
      rw [h.counted v] at hlookup
      rw [← getD_numbered (entries.countP _), hlookup]
      exact hle

/-! ## Exactness -/

/-- The list is read by the words that are printed of a schema and a name, as long as the words
before them can be told from a tag; where these words can be cut in one way only, this is what the
list has. -/
theorem reads_words_iff (lines : List Line) (target stderr : Str)
    (h : ∀ e ∈ entriesOf lines, e.Told) :
    ReadByWords (verifyArchive target (.exited 0 (listing lines) stderr)) (entriesOf lines) ∧
      (ReadExactly (verifyArchive target (.exited 0 (listing lines) stderr)) (entriesOf lines) ↔
        Unambiguous (entriesOf lines)) ∧
      ((∀ e ∈ entriesOf lines, IsWord e.schema ∧ IsWord e.name) →
        ReadExactly (verifyArchive target (.exited 0 (listing lines) stderr)) (entriesOf lines)) :=
  have hwords := readByWords h target stderr
  ⟨hwords, hwords.readExactly_iff, fun hnames =>
    hwords.readExactly_iff.mpr (unambiguous_of_isWord hnames)⟩

/-- The entry with a blank in its schema is one `pg_restore` tells. -/
theorem told_spacedSchema : ∀ e ∈ entriesOf [.entry spacedSchema], e.Told := by
  intro e he
  obtain rfl : e = spacedSchema := List.mem_singleton.mp he
  exact ⟨fun _ => .inl rfl, fun _ => by decide⟩

/-- The rows of that table. -/
def spacedData : Entry :=
  { spacedSchema with
    dumpId := 3296
    catalogId := 0
    tag := tableDataTag
    tag_ne := List.cons_ne_nil _ _
    tag_word := by
      rw [tableDataTag, List.forall_mem_cons, List.forall_mem_singleton]
      exact ⟨⟨by decide, forall_of_all (by decide)⟩, by decide, forall_of_all (by decide)⟩ }

/-- The list of a dump with that table. -/
def spacedListing : List Line :=
  [.comment " Selected TOC Entries:".toList (forall_of_all (by decide)), .blank, .entry spacedSchema,
    .entry spacedData]

/-- The entries of the listing with every kind of line are ones `pg_restore` tells. -/
theorem told_spacedListing : ∀ e ∈ entriesOf spacedListing, e.Told := by
  intro e he
  have hentries : entriesOf spacedListing = [spacedSchema, spacedData] := rfl
  rw [hentries, List.mem_cons, List.mem_singleton] at he
  rcases he with rfl | rfl
  · exact told_spacedSchema _ (List.mem_singleton_self _)
  · exact ⟨fun _ => .inr rfl, fun htag => absurd htag (by decide)⟩

/-- The listing with a comment, a blank line, a table and its data is read by its words. -/
theorem reads_words_spaced :
    ReadByWords (verifyArchive [] (.exited 0 (listing spacedListing) [])) (entriesOf spacedListing) ∧
      (ReadExactly (verifyArchive [] (.exited 0 (listing spacedListing) []))
          (entriesOf spacedListing) ↔ Unambiguous (entriesOf spacedListing)) ∧
      ((∀ e ∈ entriesOf spacedListing, IsWord e.schema ∧ IsWord e.name) →
        ReadExactly (verifyArchive [] (.exited 0 (listing spacedListing) []))
          (entriesOf spacedListing)) :=
  reads_words_iff spacedListing [] [] told_spacedListing

/-- The table `c` of the schema `a b` is read as the table `b c` of the schema `a`. -/
theorem spaced_schema_moves :
    ¬ReadExactly (verifyArchive [] (.exited 0 (listing [.entry spacedSchema]) []))
      (entriesOf [.entry spacedSchema]) := by
  intro hexact
  have htable := ((readByWords told_spacedSchema [] []).table "a".toList "b c".toList).mpr
    ⟨spacedSchema, List.mem_singleton_self _, rfl, by decide⟩
  exact not_table_spacedName ((hexact.table _ _).mp htable)

end Fraisier.Dbops.ArchiveToc
