import Fraisier.Lib.Fallible
import Fraisier.Lib.Partition
import Fraisier.Config.PgConn

/-!
# Quoted values

`urllib.parse.quote` with nothing safe, and libpq's reading of what it writes: `decode_quote`. A zero
byte is the one that it writes and libpq refuses.
-/

namespace Fraisier.Config

open Fraisier.Lib Str

/-- `_ALWAYS_SAFE`. -/
def alwaysSafe (b : UInt8) : Bool :=
  0x30 ≤ b && b ≤ 0x39 || 0x41 ≤ b && b ≤ 0x5a || 0x61 ≤ b && b ≤ 0x7a || b = 0x5f || b = 0x2e ||
    b = 0x2d || b = 0x7e

/-- A hexadecimal digit, as `%X` writes it. -/
def upperHex (n : ℕ) : Char := ("0123456789ABCDEF".toList)[n]?.getD '0'

/-- `_Quoter.__missing__`. -/
def quoteByte (b : UInt8) : Str :=
  if alwaysSafe b then [Char.ofNat b.toNat]
  else ['%', upperHex (b.toNat / 16), upperHex (b.toNat % 16)]

/-- The bytes of a text. -/
def utf8 (s : Str) : List UInt8 := s.flatMap String.utf8EncodeChar

/-- `quote(s, safe="")`. -/
def quote (s : Str) : Str := (utf8 s).flatMap quoteByte

example : quote "-c a=é".toList = "-c%20a%3D%C3%A9".toList := by decide

/-! ## Bytes -/

/-- A hexadecimal digit is read back. -/
theorem hexDigit_upperHex : ∀ n < 16, hexDigit (upperHex n) = some n := by decide

/-- A byte that is written as it is. -/
theorem alwaysSafe_spec : ∀ n < 256, alwaysSafe (UInt8.ofNat n) = true →
    String.utf8EncodeChar (Char.ofNat n) = [UInt8.ofNat n] ∧ Char.ofNat n ≠ '%' ∧
      UInt8.ofNat n ≠ 0 := by
  decide +kernel

/-- A character other than the percent sign is its own bytes. -/
theorem decodeBytes_cons {c : Char} (h : c ≠ '%') (s : Str) :
    decodeBytes (c :: s) = (decodeBytes s).map (String.utf8EncodeChar c ++ ·) := by
  rw [decodeBytes.eq_def]
  split
  · next heq => exact absurd (List.cons.inj heq).1 h
  · next heq => exact absurd (List.cons.inj heq).1 h
  · next heq =>
    obtain ⟨rfl, rfl⟩ := List.cons.inj heq
    cases decodeBytes s <;> rfl
  · next heq => cases heq

/-- An escape is its byte, and no zero. -/
theorem decodeBytes_escape {a b : Char} {m n : ℕ} (ha : hexDigit a = some m)
    (hb : hexDigit b = some n) (s : Str) :
    decodeBytes ('%' :: a :: b :: s) = if 16 * m + n = 0 then none
      else (decodeBytes s).map (UInt8.ofNat (16 * m + n) :: ·) := by
  rw [decodeBytes.eq_def]
  simp only [ha, hb, Option.bind_eq_bind, Option.bind_some]
  split
  · rfl
  · cases decodeBytes s <;> rfl

/-- One byte is read back, unless it is zero. -/
theorem decodeBytes_quoteByte (b : UInt8) (rest : Str) :
    decodeBytes (quoteByte b ++ rest) =
      if b = 0 then none else (decodeBytes rest).map (b :: ·) := by
  have hlt : b.toNat < 256 := b.toNat_lt
  have hself : UInt8.ofNat b.toNat = b := UInt8.ofNat_toNat
  unfold quoteByte
  -- A safe byte stands for itself, and any other is its two digits.
  by_cases hsafe : alwaysSafe b = true
  · obtain ⟨hencode, hne, hzero⟩ := alwaysSafe_spec b.toNat hlt (by rw [hself]; exact hsafe)
    rw [hself] at hencode hzero
    rw [if_pos hsafe, if_neg hzero, List.singleton_append, decodeBytes_cons hne, hencode]
    rfl
  · have hdigits : 16 * (b.toNat / 16) + b.toNat % 16 = b.toNat := Nat.div_add_mod _ _
    have hzero : b.toNat = 0 ↔ b = 0 := by
      rw [← UInt8.toNat_inj]
      rfl
    rw [if_neg hsafe]
    show decodeBytes ('%' :: upperHex (b.toNat / 16) :: upperHex (b.toNat % 16) :: rest) = _
    rw [decodeBytes_escape (hexDigit_upperHex _ (by omega)) (hexDigit_upperHex _ (by omega)),
      hdigits, hself]
    simp only [hzero]

/-- The text of some bytes is read as the bytes, if none of them is zero. -/
theorem decodeBytes_quote (bs : List UInt8) :
    decodeBytes (bs.flatMap quoteByte) = if 0 ∈ bs then none else some bs := by
  induction bs with
  | nil => rfl
  | cons b bs ih =>
    rw [List.flatMap_cons, decodeBytes_quoteByte, ih]
    by_cases hb : b = 0
    · simp [hb]
    · by_cases hbs : 0 ∈ bs
      · simp [hbs]
      · simp [hb, hbs, Ne.symm hb]

/-! ## Texts -/

/-- The bytes of a text are decoded to it. -/
theorem decodeUtf8_utf8 (s : Str) : decodeUtf8 ⟨(utf8 s).toArray⟩ = some s := by
  have hbytes : (⟨(utf8 s).toArray⟩ : ByteArray) = (String.ofList s).toByteArray := by
    rw [String.toByteArray_ofList]
    exact ByteArray.ext List.data_toByteArray.symm
  rw [hbytes]
  exact (decodeUtf8_toByteArray (String.ofList s)).trans (congrArg some String.toList_ofList)

/-- A text without an escape has the bytes of the text. -/
theorem decodeBytes_of_notMem {s : Str} (h : '%' ∉ s) : decodeBytes s = some (utf8 s) := by
  induction s with
  | nil => rfl
  | cons c s ih =>
    rw [List.mem_cons, not_or] at h
    rw [decodeBytes_cons (Ne.symm h.1), ih h.2]
    rfl

/-- `decode` goes by the bytes, whether there is an escape or not. -/
theorem decode_eq (s : Str) :
    decode s = (decodeBytes s).bind fun bytes => decodeUtf8 ⟨bytes.toArray⟩ := by
  unfold decode
  split
  · rfl
  · next h =>
    rw [decodeBytes_of_notMem h, Option.bind_some, decodeUtf8_utf8]

/-- Only the character of the number zero has a zero byte. -/
theorem zero_mem_utf8EncodeChar (c : Char) : 0 ∈ String.utf8EncodeChar c ↔ c = '\x00' := by
  have hbyte : ∀ n : ℕ, 0 = UInt8.ofNat n ↔ n % 256 = 0 := by
    intro n
    rw [← UInt8.toNat_inj, UInt8.toNat_ofNat']
    exact eq_comm
  have hchar : c = '\x00' ↔ c.val.toNat = 0 := by
    rw [Char.ext_iff, ← UInt32.toNat_inj]
    rfl
  rw [hchar]
  unfold String.utf8EncodeChar
  -- One case for each length of the encoding: a leading or later byte is never zero.
  dsimp only
  split
  · simp only [List.mem_singleton, hbyte]
    omega
  split
  · simp only [List.mem_cons, List.not_mem_nil, or_false, hbyte]
    omega
  split
  · simp only [List.mem_cons, List.not_mem_nil, or_false, hbyte]
    omega
  · simp only [List.mem_cons, List.not_mem_nil, or_false, hbyte]
    omega

/-- A zero byte comes of a zero character. -/
theorem zero_mem_utf8 (s : Str) : 0 ∈ utf8 s ↔ '\x00' ∈ s := by
  unfold utf8
  simp only [List.mem_flatMap, zero_mem_utf8EncodeChar, exists_eq_right]

/-- A quoted text is read as the text, unless it has a zero. -/
theorem decode_quote (s : Str) : decode (quote s) = if '\x00' ∈ s then none else some s := by
  rw [decode_eq]
  unfold quote
  rw [decodeBytes_quote]
  simp only [zero_mem_utf8]
  split
  · rfl
  · exact decodeUtf8_utf8 s

/-- A quoted byte holds no ampersand. -/
theorem notMem_quoteByte : ∀ n < 256, '&' ∉ quoteByte (UInt8.ofNat n) := by decide +kernel

/-- A quoted text has nothing that a query is cut at. -/
theorem notMem_quote (s : Str) : '&' ∉ quote s := by
  unfold quote
  intro h
  obtain ⟨b, -, hb⟩ := List.mem_flatMap.mp h
  have hbyte := notMem_quoteByte b.toNat b.toNat_lt
  rw [UInt8.ofNat_toNat] at hbyte
  exact hbyte hb

end Fraisier.Config
