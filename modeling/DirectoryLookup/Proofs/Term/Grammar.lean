import DirectoryLookup.Term
import Mathlib.Data.List.Forall2

/-!
# The grammar of terms

A term is a `!` or nothing, the name of a field, an operator and a value, with any blanks around.

**Theorem (`read_eq_ok_iff`).** A text is read as an expression exactly when, trimmed, it is the
text of the parts of a term whose value is not empty, and the expression is that of these parts.

The name of a field has neither an operator nor a `!` in it. So a text has the parts of one term at
most, and the operator of the term is the first in the text (`eq_of_append_operator_eq`).
-/

namespace DirectoryLookup.Term

/-! ## The parts of a term -/

/-- The character that writes an operator. -/
def Operator.char : Operator → Char
  | equals => '='
  | contains => '~'

/-- The name of a field in a term: a letter, and then letters, digits, dots and hyphens. -/
inductive IsFieldName : List Char → Prop
  | mk {c : Char} {name : List Char} :
      c.isAlpha = true → (∀ d ∈ name, isNameChar d = true) → IsFieldName (c :: name)

/-- The text that the parts are taken from. -/
def Parts.text (p : Parts) : List Char :=
  (if p.negated then ['!'] else []) ++ (p.field ++ p.operator.char :: p.value)

/-- Parts that are found in a text. The value may be empty. -/
structure Parts.Fit (p : Parts) : Prop where
  field : IsFieldName p.field
  value : '\n' ∉ p.value

theorem Operator.ofChar?_eq_some_iff {c : Char} {o : Operator} :
    Operator.ofChar? c = some o ↔ c = o.char := by
  constructor
  · intro h
    unfold Operator.ofChar? at h
    split at h
    · obtain rfl := Option.some.inj h
      rfl
    · obtain rfl := Option.some.inj h
      rfl
    · cases h
  · rintro rfl
    cases o <;> rfl

theorem isNameChar_of_isAlpha {c : Char} (h : c.isAlpha = true) : isNameChar c = true := by
  simp [isNameChar, Char.isAlphanum, h]

theorem IsFieldName.isNameChar {name : List Char} (h : IsFieldName name) :
    ∀ c ∈ name, isNameChar c = true := by
  obtain ⟨hc, hname⟩ := h
  exact List.forall_mem_cons.2 ⟨isNameChar_of_isAlpha hc, hname⟩

theorem ne_of_isNameChar {c d : Char} (hc : isNameChar c = true) (hd : isNameChar d = false) :
    c ≠ d := by
  rintro rfl
  rw [hc] at hd
  cases hd

theorem isNameChar_operator (o : Operator) : isNameChar o.char = false := by
  cases o <;> decide

/-- A name ends where the operator is. -/
theorem takeWhile_isNameChar {name : List Char} (h : ∀ c ∈ name, isNameChar c = true) (o : Operator)
    (value : List Char) :
    (name ++ o.char :: value).takeWhile isNameChar = name ∧
      (name ++ o.char :: value).dropWhile isNameChar = o.char :: value := by
  have ho : ¬isNameChar o.char = true := by
    rw [isNameChar_operator]
    exact Bool.false_ne_true
  rw [List.takeWhile_append_of_pos h, List.dropWhile_append_of_pos h,
    List.takeWhile_cons_of_neg ho, List.dropWhile_cons_of_neg ho, List.append_nil]
  exact ⟨rfl, rfl⟩

theorem bareParts?_eq_some_iff {negated : Bool} {s : List Char} {p : Parts} :
    bareParts? negated s = some p ↔
      p.negated = negated ∧ s = p.field ++ p.operator.char :: p.value ∧ p.Fit := by
  constructor
  · intro h
    unfold bareParts? at h
    cases s with
    | nil => cases h
    | cons c s =>
      simp only at h
      split at h
      case isFalse => cases h
      case isTrue hc =>
        split at h
        · cases h
        · next o value hrest =>
          obtain ⟨operator, ho, hparts⟩ := Option.bind_eq_some_iff.1 h
          obtain rfl := Operator.ofChar?_eq_some_iff.1 ho
          split at hparts
          · cases hparts
          · next hvalue =>
            obtain rfl := Option.some.inj hparts
            refine ⟨rfl, ?_, ⟨hc, fun d hd => ?_⟩, by simpa using hvalue⟩
            · rw [← hrest, List.cons_append, List.takeWhile_append_dropWhile]
            · exact List.all_eq_true.1 List.all_takeWhile d hd
  · rintro ⟨hnegated, rfl, hfield, hvalue⟩
    obtain ⟨negated, field, operator, value⟩ := p
    obtain rfl : negated = _ := hnegated
    obtain @⟨c, name, hc, hname⟩ := hfield
    obtain ⟨htake, hdrop⟩ := takeWhile_isNameChar hname operator value
    have ho : Operator.ofChar? operator.char = some operator := Operator.ofChar?_eq_some_iff.2 rfl
    have hvalue : '\n' ∉ value := hvalue
    simp [bareParts?, hc, htake, hdrop, ho, hvalue]

/-- A name does not start with a `!`. -/
theorem IsFieldName.ne_cons {name : List Char} (h : IsFieldName name) (s t : List Char) :
    name ++ s ≠ '!' :: t := by
  obtain ⟨hc, -⟩ := h
  rintro heq
  obtain ⟨rfl, -⟩ := List.cons.inj heq
  cases hc

/-- **A text has exactly the parts that it is the text of.** -/
theorem parts?_eq_some_iff {s : List Char} {p : Parts} :
    parts? s = some p ↔ s = p.text ∧ p.Fit := by
  obtain ⟨negated, field, operator, value⟩ := p
  unfold parts? Parts.text
  split
  · next s =>
    rw [bareParts?_eq_some_iff]
    cases negated with
    | true => simp
    | false =>
      constructor
      · rintro ⟨h, -⟩
        cases h
      · rintro ⟨h, hfit⟩
        exact absurd h.symm (hfit.field.ne_cons _ _)
  · next hs =>
    rw [bareParts?_eq_some_iff]
    cases negated with
    | true =>
      constructor
      · rintro ⟨h, -⟩
        cases h
      · rintro ⟨h, -⟩
        exact absurd h (hs _)
    | false => simp

/-! ## Reading -/

/-- **What is read as an expression, and as which.** -/
theorem read_eq_ok_iff {term : String} {e : Expression} :
    read term = .ok e ↔
      ∃ p : Parts, Text.trim term.toList = p.text ∧ p.Fit ∧ p.value ≠ [] ∧ e = p.expression := by
  unfold read
  constructor
  · intro h
    split at h
    · cases h
    · next p hp =>
      split at h
      · cases h
      · next hvalue =>
        obtain rfl := Except.ok.inj h
        obtain ⟨htext, hfit⟩ := parts?_eq_some_iff.1 hp
        exact ⟨p, htext, hfit, hvalue, rfl⟩
  · rintro ⟨p, htext, hfit, hvalue, rfl⟩
    rw [parts?_eq_some_iff.2 ⟨htext, hfit⟩]
    simp only [if_neg hvalue]

theorem mapM_read_eq_ok {terms : List String} {es : List Expression}
    (h : terms.mapM read = .ok es) : List.Forall₂ (fun term e => read term = .ok e) terms es := by
  induction terms generalizing es with
  | nil =>
    obtain rfl := Except.ok.inj h
    exact .nil
  | cons term terms ih =>
    rw [List.mapM_cons] at h
    cases hterm : read term with
    | error error =>
      rw [hterm] at h
      cases h
    | ok e =>
      rw [hterm] at h
      cases hterms : terms.mapM read with
      | error error =>
        rw [hterms] at h
        cases h
      | ok es' =>
        rw [hterms] at h
        obtain rfl := Except.ok.inj h
        exact .cons hterm (ih hterms)

/-- Terms that are read are read one by one. -/
theorem readAll_eq_ok {terms : List String} {query : Option Expression}
    (h : readAll terms = .ok query) :
    ∃ es, List.Forall₂ (fun term e => read term = .ok e) terms es ∧ query = conjunction es := by
  unfold readAll at h
  cases hterms : terms.mapM read with
  | error error =>
    rw [hterms] at h
    cases h
  | ok es =>
    rw [hterms] at h
    exact ⟨es, mapM_read_eq_ok hterms, (Except.ok.inj h).symm⟩

theorem exists_read_of_mem {terms : List String} {es : List Expression}
    (h : List.Forall₂ (fun term e => read term = .ok e) terms es) {term : String}
    (hterm : term ∈ terms) : ∃ e, read term = .ok e := by
  induction h with
  | nil => cases hterm
  | @cons _ e _ _ he _ ih =>
    rcases List.mem_cons.1 hterm with rfl | hterm
    · exact ⟨e, he⟩
    · exact ih hterm

/-! ## The first operator -/

/-- The character is an operator. -/
def isOperator (c : Char) : Bool :=
  c == '=' || c == '~'

theorem not_isOperator_of_isNameChar {c : Char} (h : isNameChar c = true) :
    isOperator c = false := by
  simp only [isOperator, Bool.or_eq_false_iff, beq_eq_false_iff_ne]
  exact ⟨ne_of_isNameChar h (by decide), ne_of_isNameChar h (by decide)⟩

/-- A text is cut in one way only at its first operator. -/
theorem eq_of_append_operator_eq {a b s t : List Char} {c d : Char}
    (ha : ∀ x ∈ a, isOperator x = false) (hb : ∀ x ∈ b, isOperator x = false)
    (hc : isOperator c = true) (hd : isOperator d = true) (h : a ++ c :: s = b ++ d :: t) :
    a = b ∧ c = d ∧ s = t := by
  have cut {a s : List Char} {c : Char} (ha : ∀ x ∈ a, isOperator x = false)
      (hc : isOperator c = true) : (a ++ c :: s).takeWhile (!isOperator ·) = a := by
    rw [List.takeWhile_append_of_pos (by simpa using ha), List.takeWhile_cons_of_neg (by simp [hc]),
      List.append_nil]
  have hab : a = b := by rw [← cut (s := s) ha hc, h, cut hb hd]
  subst hab
  obtain ⟨hcd, hst⟩ := List.cons.inj (List.append_cancel_left h)
  exact ⟨rfl, hcd, hst⟩

end DirectoryLookup.Term
