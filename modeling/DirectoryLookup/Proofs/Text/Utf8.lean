import DirectoryLookup.Text.CodePoint
import Mathlib.Data.String.Basic
import Mathlib.Tactic.SplitIfs

/-!
# The order of texts and of their bytes

Texts are compared character by character, and keys of a table byte by byte, each by the bytes that
write it in UTF-8.

**Theorem (`bytes_lt_iff`).** Both are the same order. A character of a greater number has the
greater bytes, whatever follows: its first byte tells the length, and of two characters of one
length the bytes are the digits of their numbers in base 64.
-/

namespace DirectoryLookup.Text

open String (utf8EncodeChar)

/-- The bytes that write a text in UTF-8. -/
def bytes (text : String) : List UInt8 :=
  text.toUTF8.data.toList

theorem bytes_eq_flatMap (text : String) : bytes text = text.toList.flatMap utf8EncodeChar := by
  show text.toByteArray.data.toList = _
  rw [← String.utf8Encode_toList]
  exact List.toList_data_toByteArray

/-! ## Single bytes -/

theorem ofNat_cons_lt_iff {a b : Nat} (ha : a < 256) (hb : b < 256) (s t : List UInt8) :
    UInt8.ofNat a :: s < UInt8.ofNat b :: t ↔ a < b ∨ a = b ∧ s < t := by
  have hlt : UInt8.ofNat a < UInt8.ofNat b ↔ a < b := by
    rw [UInt8.lt_iff_toNat_lt, UInt8.toNat_ofNat', UInt8.toNat_ofNat']
    omega
  have heq : UInt8.ofNat a = UInt8.ofNat b ↔ a = b := by
    rw [← UInt8.toNat_inj, UInt8.toNat_ofNat', UInt8.toNat_ofNat']
    omega
  rw [List.cons_lt_cons_iff, hlt, heq]

/-! ## Characters -/

/-- **The greater character has the greater bytes**, whatever follows. -/
theorem utf8EncodeChar_append_lt {c d : Char} (h : c < d) (s t : List UInt8) :
    utf8EncodeChar c ++ s < utf8EncodeChar d ++ t := by
  have hlt : c.val.toNat < d.val.toNat := h
  have hd : d.val.toNat < 0xD800 ∨ 0xDFFF < d.val.toNat ∧ d.val.toNat < 0x110000 := toNat_range d
  rw [utf8EncodeChar.eq_def, utf8EncodeChar.eq_def]
  generalize c.val.toNat = m at *
  generalize d.val.toNat = n at *
  -- Each digit in base 64 is a remainder of the quotient before it.
  have h₂ (v : Nat) : v / 4096 = v / 64 / 64 := by omega
  have h₃ (v : Nat) : v / 262144 = v / 64 / 64 / 64 := by omega
  simp only [h₂, h₃]
  -- One case for each pair of lengths; in those where the first is longer, `m < n` fails.
  split_ifs <;>
    simp (disch := omega) only [List.cons_append, List.nil_append, ofNat_cons_lt_iff] <;> omega

/-! ## Texts -/

theorem flatMap_utf8EncodeChar_lt {s t : List Char} (h : s < t) :
    s.flatMap utf8EncodeChar < t.flatMap utf8EncodeChar := by
  induction h with
  | @nil c t =>
    obtain ⟨b, bs, hb⟩ := List.exists_cons_of_ne_nil (@String.utf8EncodeChar_ne_nil c)
    rw [List.flatMap_nil, List.flatMap_cons, hb]
    exact List.nil_lt_cons b _
  | rel h =>
    rw [List.flatMap_cons, List.flatMap_cons]
    exact utf8EncodeChar_append_lt h _ _
  | cons _ ih =>
    rw [List.flatMap_cons, List.flatMap_cons]
    exact List.append_left_lt ih

theorem bytes_lt {s t : String} (h : s < t) : bytes s < bytes t := by
  rw [bytes_eq_flatMap, bytes_eq_flatMap]
  exact flatMap_utf8EncodeChar_lt (String.lt_iff_toList_lt.1 h)

/-- **Texts compare as their bytes do.** -/
theorem bytes_lt_iff {s t : String} : bytes s < bytes t ↔ s < t := by
  refine ⟨fun h => ?_, bytes_lt⟩
  rcases lt_trichotomy s t with hst | rfl | hts
  · exact hst
  · exact absurd h (List.lt_irrefl _)
  · exact absurd (bytes_lt hts) (List.lt_asymm h)

theorem bytes_le_iff {s t : String} : bytes s ≤ bytes t ↔ s ≤ t := by
  rw [← List.not_lt, bytes_lt_iff, not_lt]

end DirectoryLookup.Text
