import DirectoryLookup.Proofs.Number.Shortest
import DirectoryLookup.Proofs.Settings.SchemaVariable

/-!
# What the text of a variable stands for

The text of a variable is taken as a yes or no, an integer or a number where it reads as one, and
a setting that is a text gets the text of that value.

**Theorem (`text?_valueOf_eq_iff`).** This is the text of the variable exactly if the text is kept
(`IsKept`): it reads as none of these, or is written as values of its kind are.

**Theorem (`number?_valueOf_digits`).** The digits of a number below `2 ^ 63` stand for the number.
Those of a greater one stand for the nearest multiple of 2048, but for no number above the greatest
of 64 bits.
-/

namespace DirectoryLookup.Settings

open Number

/-- The texts that are written as the values they stand for. -/
inductive IsKept : String → Prop
  /-- A text that stands for itself. -/
  | word {text : String} (h : IsWord text) : IsKept text
  | bool (b : Bool) : IsKept (if b then "true" else "false")
  | integer {n : Int} (h : isInt64 n = true) : IsKept (toString n)
  /-- The zero below zero is read as an integer, which has no sign. -/
  | float {x : Double} (h : x.IsRounded) (hzero : x ≠ .finite true 0) :
      IsKept (String.ofList x.text)

variable {text : String}

/-! ## Texts that start as numbers do -/

/-- What the text of a number starts with: a digit, a minus, or a letter of `inf` or `NaN`. -/
def IsNumberStart (c : Char) : Prop :=
  c.isDigit = true ∨ c ∈ ['-', 'i', 'N']

/-- A text that starts as a number does is no yes or no. -/
theorem IsNumberStart.lowerWord_ne {c : Char} {s : List Char} (hc : IsNumberStart c)
    (h : text.toList = c :: s) : lowerWord text ≠ "true" ∧ lowerWord text ≠ "false" := by
  have hlower : c.toLower ≠ 't' ∧ c.toLower ≠ 'f' := by
    rcases hc with hc | hc
    · rw [toLower_of_isDigit hc]
      constructor <;> rintro rfl <;> cases hc
    · simp only [List.mem_cons, List.not_mem_nil, or_false] at hc
      rcases hc with rfl | rfl | rfl <;> decide
  have hhead {d : Char} {word : String} (hd : c.toLower ≠ d) (hword : word.toList.head? = some d) :
      lowerWord text ≠ word := by
    rintro rfl
    rw [lowerWord, String.toList_ofList, h] at hword
    exact hd (Option.some.inj hword)
  exact ⟨hhead hlower.1 (by decide), hhead hlower.2 (by decide)⟩

/-- The text of an integer starts as a number does. -/
theorem exists_toString_eq_cons (n : Int) :
    ∃ c s, (toString n).toList = c :: s ∧ IsNumberStart c := by
  rw [toList_toString]
  obtain ⟨c, s, h, hc⟩ := exists_digitsOf_eq_cons n.natAbs
  cases decide (n < 0) with
  | true => exact ⟨'-', _, rfl, .inr (by decide)⟩
  | false => exact ⟨c, s, h, .inl hc⟩

/-- So does the text of a number. -/
theorem exists_text_eq_cons (x : Double) : ∃ c s, x.text = c :: s ∧ IsNumberStart c := by
  cases x with
  | finite negative units =>
    obtain ⟨c, s, h, hc⟩ := Double.exists_magnitudeText_eq_cons units
    cases negative with
    | true => exact ⟨'-', _, rfl, .inr (by decide)⟩
    | false => exact ⟨c, s, h, .inl hc⟩
  | infinite negative =>
    cases negative with
    | true => exact ⟨'-', _, rfl, .inr (by decide)⟩
    | false => exact ⟨'i', _, rfl, .inr (by decide)⟩
  | nan => exact ⟨'N', _, rfl, .inr (by decide)⟩

/-! ## Integers and numbers -/

theorem IsNumberStart.valueOf_integer {c : Char} {s : List Char} (hc : IsNumberStart c)
    (h : text.toList = c :: s) {n : Int} (hread : intOf? text.toList = some n)
    (hn : isInt64 n = true) : valueOf text = .integer n := by
  obtain ⟨htrue, hfalse⟩ := hc.lowerWord_ne h
  rw [valueOf, if_neg htrue, if_neg hfalse, hread, Option.filter_some, if_pos hn]

theorem IsNumberStart.valueOf_float {c : Char} {s : List Char} (hc : IsNumberStart c)
    (h : text.toList = c :: s) {x : Double} (hread : Double.ofText? text.toList = some x)
    (hint : (intOf? text.toList).filter isInt64 = none) : valueOf text = .float x := by
  obtain ⟨htrue, hfalse⟩ := hc.lowerWord_ne h
  rw [valueOf, if_neg htrue, if_neg hfalse, hint, hread]

/-- The text of an integer stands for it. -/
theorem valueOf_toString {n : Int} (hn : isInt64 n = true) :
    valueOf (toString n) = .integer n := by
  obtain ⟨c, s, h, hc⟩ := exists_toString_eq_cons n
  exact hc.valueOf_integer h (intOf?_toString n) hn

/-! ## Texts that are kept -/

theorem IsKept.text?_valueOf (h : IsKept text) : (valueOf text).text? = some text := by
  cases h with
  | word h => rw [h.valueOf_eq]; rfl
  | bool b => cases b <;> decide +kernel
  | integer h => rw [valueOf_toString h]; rfl
  | @float x h hzero =>
    obtain ⟨c, s, hcons, hc⟩ := exists_text_eq_cons x
    have hlist : (String.ofList x.text).toList = x.text := String.toList_ofList
    cases hint : (intOf? x.text).filter isInt64 with
    | none =>
      rw [hc.valueOf_float (hlist.trans hcons) (by rw [hlist]; exact Double.ofText?_text h)
        (by rw [hlist]; exact hint)]
      rfl
    | some n =>
      obtain ⟨hread, hn⟩ := Option.filter_eq_some_iff.1 hint
      have htext : String.ofList x.text = toString n := by
        rw [Double.text_eq_of_intOf? h hzero hread, String.ofList_toList]
      rw [htext, valueOf_toString hn]
      rfl

/-- **The texts that the values they stand for are written as.** -/
theorem text?_valueOf_eq_iff (text : String) :
    (valueOf text).text? = some text ↔ IsKept text := by
  refine ⟨fun h => ?_, IsKept.text?_valueOf⟩
  by_cases htrue : lowerWord text = "true"
  · rw [valueOf, if_pos htrue] at h
    exact Option.some.inj h ▸ .bool true
  by_cases hfalse : lowerWord text = "false"
  · rw [valueOf, if_neg htrue, if_pos hfalse] at h
    exact Option.some.inj h ▸ .bool false
  rw [valueOf, if_neg htrue, if_neg hfalse] at h
  cases hint : (intOf? text.toList).filter isInt64 with
  | some n =>
    obtain ⟨-, hn⟩ := Option.filter_eq_some_iff.1 hint
    rw [hint] at h
    exact Option.some.inj h ▸ .integer hn
  | none =>
    rw [hint] at h
    cases hread : Double.ofText? text.toList with
    | some x =>
      rw [hread] at h
      have htext : String.ofList x.text = text := Option.some.inj h
      have hzero : x ≠ .finite true 0 := by
        rintro rfl
        rw [← htext] at hint
        exact absurd hint (by decide +kernel)
      exact htext ▸ .float (Double.isRounded_of_ofText? hread) hzero
    | none =>
      refine .word ⟨htrue, hfalse, ?_, hread⟩
      rw [Option.eq_none_iff_forall_ne_some]
      exact fun n hn => Double.ofText?_ne_none_of_intOf? hn hread

/-! ## The number of a text of digits -/

/-- A number of 64 bits or more is rounded to a multiple of 2048, as far as 64 bits allow. -/
theorem min_nearest {n : Nat} (h : 2 ^ 63 ≤ n) :
    min numberMax (Double.nearest n 1) = min numberMax (2048 * roundDiv n 2048) := by
  by_cases hn : n < 2 ^ 64
  · have hspacing : Double.spacing n = 2 ^ 11 := Double.spacing_eq_iff.2 (by omega)
    rw [Double.nearest_of_spacing hspacing, Nat.mul_comm]
    rfl
  · have hmax : numberMax ≤ 2 ^ 64 := by decide
    have hnearest : 2 ^ 52 * 2 ^ 12 ≤ Double.nearest n 1 := Double.le_nearest (by omega)
    have hrounded : 2 ^ 53 ≤ roundDiv n 2048 := le_roundDiv (by decide) (by omega)
    rw [min_eq_left (by omega), min_eq_left (by omega)]

theorem isInt64_natCast (n : Nat) : isInt64 (n : Int) = decide (n < 2 ^ 63) := by
  have hpower : (Nat.pow 2 63 : Int) = 2 ^ 63 := rfl
  simp only [isInt64, ← Bool.decide_and, hpower, decide_eq_decide]
  omega

/-- The digits of a number below `2 ^ 63` stand for an integer. -/
theorem valueOf_digits_of_lt {n : Nat} (h : n < 2 ^ 63) : valueOf (toString n) = .integer n := by
  have hn : isInt64 (n : Int) = true := by rw [isInt64_natCast, decide_eq_true h]
  have htext : toString n = toString (n : Int) := rfl
  rw [htext]
  exact valueOf_toString hn

/-- Those of a greater one stand for a double. -/
theorem valueOf_digits_of_le {n : Nat} (h : 2 ^ 63 ≤ n) :
    valueOf (toString n) = .float (.ofNat n) := by
  have hlist : (toString n).toList = digitsOf n := Nat.toList_repr
  obtain ⟨c, s, hcons, hc⟩ := exists_digitsOf_eq_cons n
  have hint : (intOf? (toString n).toList).filter isInt64 = none := by
    have htext : toString n = toString (n : Int) := rfl
    rw [htext, intOf?_toString, Option.filter_some, isInt64_natCast,
      decide_eq_false (Nat.not_lt.2 h)]
    rfl
  have hread : Double.ofText? (toString n).toList = some (.ofNat n) := by
    have hsign : Double.ofText? (c :: s) =
        (Decimal.ofText? false (c :: s)).map Decimal.toDouble :=
      Double.ofText?_sign_append false hc
    have hdigits : Decimal.ofText? false (c :: s) = some ⟨false, n, -(0 : Nat)⟩ :=
      hcons ▸ Decimal.ofText?_digits false (natOf?_digitsOf n)
    rw [hlist, hcons, hsign, hdigits, Option.map_some,
      Double.toDouble_of_le (by omega) (Nat.zero_le _)]
    rfl
  have hstart : IsNumberStart c := .inl hc
  exact hstart.valueOf_float (hlist.trans hcons) hread hint

/-- **The number that digits stand for.** -/
theorem number?_valueOf_digits (n : Nat) :
    (valueOf (toString n)).number? =
      some (if n < 2 ^ 63 then n else min numberMax (2048 * roundDiv n 2048)) := by
  by_cases h : n < 2 ^ 63
  · rw [valueOf_digits_of_lt h, if_pos h]
    simp [Raw.number?]
  · rw [valueOf_digits_of_le (Nat.not_lt.1 h), if_neg h, ← min_nearest (Nat.not_lt.1 h),
      ← Double.roundWithin_ofNat (by decide +kernel) (by omega)]
    rfl

end DirectoryLookup.Settings
