import DirectoryLookup.Number.Double
import DirectoryLookup.Proofs.Number.Digits
import Mathlib.Data.List.TakeWhile

/-!
# Decimal numbers read from their text

A text of digits, with a point among them or without, behind a minus or not, is read as the decimal
number it writes (`ofText?_sign_append`, `ofText?_digits`, `ofText?_point`). So the text of every
integer is read as a double (`ofText?_ne_none_of_intOf?`); one that is no number is no integer.
-/

namespace DirectoryLookup.Number

/-! ## Digits and a point -/

namespace Decimal

variable {whole fraction : List Char}

theorem pieces_digits (h : ∀ c ∈ whole, c.isDigit = true) : pieces whole = (whole, [], []) := by
  have htake : whole.takeWhile Char.isDigit = whole := List.takeWhile_eq_self_iff.2 h
  have hdrop : whole.dropWhile Char.isDigit = [] := List.dropWhile_eq_nil_iff.2 h
  rw [pieces, htake, hdrop]

theorem pieces_point (hwhole : ∀ c ∈ whole, c.isDigit = true)
    (hfraction : ∀ c ∈ fraction, c.isDigit = true) :
    pieces (whole ++ '.' :: fraction) = (whole, fraction, []) := by
  have htake : (whole ++ '.' :: fraction).takeWhile Char.isDigit = whole := by
    rw [List.takeWhile_append_of_pos hwhole, List.takeWhile_cons_of_neg (by decide),
      List.append_nil]
  have hdrop : (whole ++ '.' :: fraction).dropWhile Char.isDigit = '.' :: fraction := by
    rw [List.dropWhile_append_of_pos hwhole, List.dropWhile_cons_of_neg (by decide)]
  rw [pieces, htake, hdrop]
  simp only [List.takeWhile_eq_self_iff.2 hfraction, List.dropWhile_eq_nil_iff.2 hfraction]

/-- A run of digits is a decimal number. -/
theorem ofText?_digits (negative : Bool) {n : Nat} (h : natOf? whole = some n) :
    ofText? negative whole = some ⟨negative, n, 0⟩ := by
  obtain ⟨hne, hdigits, rfl⟩ := natOf?_eq_some_iff.1 h
  rw [ofText?, pieces_digits hdigits]
  simp [hne, exponentOf?]

/-- Digits with a point among them are the number without the point, at as many places as there
are digits behind it. -/
theorem ofText?_point (negative : Bool) (hne : whole ≠ [])
    (hwhole : ∀ c ∈ whole, c.isDigit = true) (hfraction : ∀ c ∈ fraction, c.isDigit = true) :
    ofText? negative (whole ++ '.' :: fraction) =
      some ⟨negative, natOf (whole ++ fraction), -fraction.length⟩ := by
  rw [ofText?, pieces_point hwhole hfraction]
  simp [hne, exponentOf?]

end Decimal

/-! ## Doubles -/

theorem toLower_of_isDigit {c : Char} (h : c.isDigit = true) : c.toLower = c := by
  simp only [Char.isDigit, Bool.and_eq_true, decide_eq_true_eq, UInt32.le_iff_toNat_le] at h
  have hnine : '9'.val.toNat = 57 := rfl
  have hcapital : 'A'.val.toNat = 65 := rfl
  refine dif_neg ?_
  rintro ⟨hupper, -⟩
  rw [ge_iff_le, UInt32.le_iff_toNat_le] at hupper
  omega

namespace Double

/-- What starts with a digit, behind a sign or not, is read as a decimal number. -/
theorem ofText?_of_digit {text : List Char} {c : Char} (hc : c.isDigit = true)
    (h : (unsign text).2.head? = some c) :
    ofText? text =
      (Decimal.ofText? (unsign text).1 (unsign text).2).map Decimal.toDouble := by
  have hword : ((unsign text).2.map Char.toLower).head? = some c := by
    rw [List.head?_map, h, Option.map_some, toLower_of_isDigit hc]
  have hne {word : List Char} {d : Char} (hd : d.isDigit = false) (hhead : word.head? = some d) :
      (unsign text).2.map Char.toLower ≠ word := by
    rintro rfl
    rw [hhead] at hword
    obtain rfl := Option.some.inj hword
    rw [hd] at hc
    cases hc
  unfold ofText?
  dsimp only
  rw [if_neg, if_neg]
  · exact hne (d := 'n') rfl rfl
  · rintro (h | h)
    · exact hne (d := 'i') rfl rfl h
    · exact hne (d := 'i') rfl rfl h

theorem ofText?_sign_append (negative : Bool) {c : Char} {text : List Char}
    (hc : c.isDigit = true) :
    ofText? ((if negative then ['-'] else []) ++ c :: text) =
      (Decimal.ofText? negative (c :: text)).map Decimal.toDouble := by
  have hsign := unsign_sign_append negative hc text
  rw [ofText?_of_digit hc (by rw [hsign]; rfl), hsign]

/-- **What is an integer is a number.** -/
theorem ofText?_ne_none_of_intOf? {text : List Char} {n : Int} (h : intOf? text = some n) :
    ofText? text ≠ none := by
  rw [intOf?_eq] at h
  obtain ⟨m, hm, -⟩ := Option.map_eq_some_iff.1 h
  obtain ⟨hne, hdigits, -⟩ := natOf?_eq_some_iff.1 hm
  obtain ⟨c, hc⟩ := Option.ne_none_iff_exists'.1 (mt List.head?_eq_none_iff.1 hne)
  rw [ofText?_of_digit (hdigits c (List.mem_of_mem_head? hc)) hc, Decimal.ofText?_digits _ hm]
  exact Option.some_ne_none _

end Double

end DirectoryLookup.Number
