import DirectoryLookup.Number.Digits
import Mathlib.Tactic.Common

/-!
# Numbers read from their digits

Main statements: `natOf?_digitsOf` and `intOf?_toString`, the decimal text of a number is read as
that number. The first holds with any zeros in front as well (`natOf_replicate_zero_append`).

A text that starts with a digit has no sign but the one put in front of it (`unsign_sign_append`).
-/

namespace DirectoryLookup.Number

/-! ## Values of digits -/

theorem natOf_eq_ofDigitChars (digits : List Char) :
    natOf digits = Nat.ofDigitChars 10 digits 0 := by
  unfold natOf Nat.ofDigitChars digitValue
  congr 1
  funext n c
  rw [Nat.mul_comm]

@[simp] theorem natOf_digitsOf (n : Nat) : natOf (digitsOf n) = n := by
  rw [natOf_eq_ofDigitChars, digitsOf, Nat.ofDigitChars_ten_toDigits]

/-- Zeros in front make no difference. -/
theorem natOf_replicate_zero_append (k : Nat) (digits : List Char) :
    natOf (List.replicate k '0' ++ digits) = natOf digits := by
  rw [natOf_eq_ofDigitChars, natOf_eq_ofDigitChars, Nat.ofDigitChars_append,
    Nat.ofDigitChars_replicate_zero, Nat.mul_zero]

/-! ## Texts of digits -/

theorem digitsOf_ne_nil (n : Nat) : digitsOf n ≠ [] :=
  Nat.toDigits_ne_nil

theorem isDigit_of_mem_digitsOf {n : Nat} {c : Char} (h : c ∈ digitsOf n) : c.isDigit = true :=
  Nat.isDigit_of_mem_toDigits (by decide) (by decide) h

theorem natOf?_eq_some_iff {text : List Char} {n : Nat} :
    natOf? text = some n ↔ text ≠ [] ∧ (∀ c ∈ text, c.isDigit = true) ∧ natOf text = n := by
  unfold natOf?
  split
  · next h =>
    rw [List.all_eq_true] at h
    exact ⟨fun hn => ⟨h.1, h.2, Option.some.inj hn⟩, fun ⟨_, _, hn⟩ => congrArg some hn⟩
  · next h =>
    rw [List.all_eq_true] at h
    exact ⟨nofun, fun ⟨hne, hall, _⟩ => absurd ⟨hne, hall⟩ h⟩

/-- **The digits of a number are read as the number.** -/
theorem natOf?_digitsOf (n : Nat) : natOf? (digitsOf n) = some n :=
  natOf?_eq_some_iff.2 ⟨digitsOf_ne_nil n, fun _ => isDigit_of_mem_digitsOf, natOf_digitsOf n⟩

/-- The digits of a number start with a digit. -/
theorem exists_digitsOf_eq_cons (n : Nat) : ∃ c s, digitsOf n = c :: s ∧ c.isDigit = true := by
  obtain ⟨c, s, h⟩ := List.exists_cons_of_ne_nil (digitsOf_ne_nil n)
  exact ⟨c, s, h, isDigit_of_mem_digitsOf (h ▸ List.mem_cons_self)⟩

/-! ## Signs -/

/-- A text that starts with a digit has no sign but the one put in front of it. -/
theorem unsign_sign_append (negative : Bool) {c : Char} (hc : c.isDigit = true) (text : List Char) :
    unsign ((if negative then ['-'] else []) ++ c :: text) = (negative, c :: text) := by
  cases negative with
  | true => rfl
  | false =>
    show unsign (c :: text) = _
    unfold unsign
    split
    · next h =>
      obtain rfl := (List.cons.inj h).1
      cases hc
    · next h =>
      obtain rfl := (List.cons.inj h).1
      cases hc
    · rfl

/-- An integer is written by digits behind its sign. -/
theorem intOf?_eq (text : List Char) :
    intOf? text = (natOf? (unsign text).2).map fun m : Nat =>
      if (unsign text).1 then -(m : Int) else m := by
  unfold intOf?
  dsimp only
  cases natOf? (unsign text).2 <;> rfl

/-- The text of an integer: its digits, behind a minus if it is below zero. -/
theorem toList_toString (n : Int) :
    (toString n).toList = (if decide (n < 0) then ['-'] else []) ++ digitsOf n.natAbs := by
  cases n with
  | ofNat m =>
    show (Nat.repr m).toList = _
    rw [Nat.toList_repr, decide_eq_false (by simp)]
    rfl
  | negSucc m =>
    show ("-" ++ Nat.repr (m + 1)).toList = _
    rw [String.toList_append, Nat.toList_repr, decide_eq_true (Int.negSucc_lt_zero m)]
    rfl

/-- **The text of an integer is read as the integer.** -/
theorem intOf?_toString (n : Int) : intOf? (toString n).toList = some n := by
  obtain ⟨c, s, h, hc⟩ := exists_digitsOf_eq_cons n.natAbs
  rw [toList_toString, intOf?_eq, h, unsign_sign_append _ hc, ← h, natOf?_digitsOf,
    Option.map_some]
  congr 1
  dsimp only
  split <;> next hn => simp only [decide_eq_true_eq] at hn; omega

end DirectoryLookup.Number
