import DirectoryLookup.Proofs.Term.Grammar
import DirectoryLookup.Proofs.Text.Trim

/-!
# What is read from terms

The grammar of terms (`IsTerm`), what the parts of a term ask for (`Parts.Asks`), and what several
expressions ask for together (`Joined`) are told here without reading anything.

**Theorem (`read_readAll_iff`).** A term is read exactly when it is written by the grammar and its
value is not empty, as the expression that its parts ask for; it has one set of parts at most, and
its operator is the first in it. Any other text is an error: without a value if it is written by the
grammar all the same, malformed if not. Several terms are read exactly when each of them is, as what
they ask for together; otherwise the first that is an error decides.
-/

namespace DirectoryLookup.Term

/-! ## One term -/

/-- `IsTerm term p`: the text, without the blanks around it, is that of the parts `p`, with the name
of a field and no line feed in the value. The value may be empty. -/
structure IsTerm (term : String) (p : Parts) : Prop where
  trims : Text.Trims term.toList p.text
  name : ∃ c cs, p.field = c :: cs ∧ c.isAlpha = true ∧
    ∀ d ∈ cs, d.isAlphanum = true ∨ d = '.' ∨ d = '-'
  value : '\n' ∉ p.value

/-- `p.Asks e`: the parts of a term ask for the expression. -/
inductive Parts.Asks : Parts → Expression → Prop
  | equals {field value : List Char} :
      Asks ⟨false, field, .equals, value⟩ (.equals (String.ofList field) (String.ofList value))
  | contains {field value : List Char} :
      Asks ⟨false, field, .contains, value⟩ (.contains (String.ofList field) (String.ofList value))
  | negated {field value : List Char} {o : Operator} {e : Expression} :
      Asks ⟨false, field, o, value⟩ e → Asks ⟨true, field, o, value⟩ (.not e)

theorem isFieldName_iff {name : List Char} :
    IsFieldName name ↔ ∃ c cs, name = c :: cs ∧ c.isAlpha = true ∧
      ∀ d ∈ cs, d.isAlphanum = true ∨ d = '.' ∨ d = '-' := by
  have hchar (d : Char) : isNameChar d = true ↔ d.isAlphanum = true ∨ d = '.' ∨ d = '-' := by
    simp only [isNameChar, Bool.or_eq_true, beq_iff_eq, or_assoc]
  constructor
  · rintro ⟨hc, hcs⟩
    exact ⟨_, _, rfl, hc, fun d hd => (hchar d).1 (hcs d hd)⟩
  · rintro ⟨c, cs, rfl, hc, hcs⟩
    exact ⟨hc, fun d hd => (hchar d).2 (hcs d hd)⟩

theorem isTerm_iff {term : String} {p : Parts} :
    IsTerm term p ↔ parts? (Text.trim term.toList) = some p := by
  rw [parts?_eq_some_iff]
  constructor
  · rintro ⟨htrims, hname, hvalue⟩
    exact ⟨(Text.trims_iff.1 htrims).symm, isFieldName_iff.2 hname, hvalue⟩
  · rintro ⟨htext, hname, hvalue⟩
    exact ⟨Text.trims_iff.2 htext.symm, isFieldName_iff.1 hname, hvalue⟩

/-- A text has the parts of one term at most. -/
theorem IsTerm.unique {term : String} {p q : Parts} (hp : IsTerm term p) (hq : IsTerm term q) :
    p = q :=
  Option.some.inj ((isTerm_iff.1 hp).symm.trans (isTerm_iff.1 hq))

theorem Parts.asks_iff {p : Parts} {e : Expression} : p.Asks e ↔ e = p.expression := by
  obtain ⟨negated, field, operator, value⟩ := p
  have hbare {e : Expression} : Parts.Asks ⟨false, field, operator, value⟩ e ↔
      e = Parts.condition ⟨false, field, operator, value⟩ := by
    constructor
    · rintro (_ | _)
      · rfl
      · rfl
    · rintro rfl
      cases operator with
      | equals => exact .equals
      | contains => exact .contains
  cases negated with
  | false => exact hbare
  | true =>
    constructor
    · rintro (_ | _ | h)
      rw [hbare.1 h]
      rfl
    · rintro rfl
      exact .negated (hbare.2 rfl)

/-- The operator of a term is the first in its text. -/
theorem IsTerm.exists_text_eq {term : String} {p : Parts} (h : IsTerm term p) :
    ∃ name, p.text = name ++ p.operator.char :: p.value ∧ ∀ c ∈ name, isOperator c = false := by
  refine ⟨(if p.negated then ['!'] else []) ++ p.field, by rw [Parts.text, List.append_assoc], ?_⟩
  intro c hc
  rcases List.mem_append.1 hc with hc | hc
  · split at hc
    · rw [List.mem_singleton.1 hc]
      rfl
    · cases hc
  · exact not_isOperator_of_isNameChar ((isFieldName_iff.2 h.name).isNameChar c hc)

/-- **The error of a text** that is not read. -/
theorem read_eq_error_iff {term : String} {error : Error} :
    read term = .error error ↔
      (∃ p, IsTerm term p ∧ p.value = []) ∧ error = .emptyValue term ∨
        (¬∃ p, IsTerm term p) ∧ error = .malformed term := by
  simp only [isTerm_iff]
  unfold read
  cases hparts : parts? (Text.trim term.toList) with
  | none => simp [eq_comm]
  | some p =>
    by_cases hvalue : p.value = []
    · simp [hvalue, eq_comm]
    · simp [hvalue]

theorem read_eq_ok_iff_asks {term : String} {e : Expression} :
    read term = .ok e ↔ ∃ p, IsTerm term p ∧ p.value ≠ [] ∧ p.Asks e := by
  rw [read_eq_ok_iff]
  simp only [isTerm_iff, parts?_eq_some_iff, Parts.asks_iff, and_assoc]

/-! ## Several terms -/

/-- What several expressions ask for together: nothing, the only one, or all of them in order. -/
inductive Joined : List Expression → Option Expression → Prop
  | none : Joined [] none
  | one (e : Expression) : Joined [e] (some e)
  | several {es : List Expression} : 2 ≤ es.length → Joined es (some (.and es))

theorem joined_iff {es : List Expression} {query : Option Expression} :
    Joined es query ↔ query = conjunction es := by
  match es with
  | [] =>
    refine ⟨?_, fun h => h ▸ .none⟩
    rintro (_ | _ | h)
    · rfl
    · simp at h
  | [e] =>
    refine ⟨?_, fun h => h ▸ .one e⟩
    rintro (_ | _ | h)
    · rfl
    · simp at h
  | e :: e' :: es =>
    refine ⟨?_, fun h => h ▸ .several (by simp)⟩
    rintro (_ | _ | _)
    rfl

theorem readAll_of_forall₂ {terms : List String} {es : List Expression}
    (h : List.Forall₂ (fun term e => read term = .ok e) terms es) :
    readAll terms = .ok (conjunction es) := by
  have hterms : terms.mapM read = .ok es := by
    induction h with
    | nil => rfl
    | cons hterm _ ih =>
      rw [List.mapM_cons, hterm, ih]
      rfl
  rw [readAll, hterms]
  rfl

theorem readAll_eq_ok_iff {terms : List String} {query : Option Expression} :
    readAll terms = .ok query ↔
      ∃ es, List.Forall₂ (fun term e => read term = .ok e) terms es ∧ Joined es query := by
  simp only [joined_iff]
  constructor
  · exact readAll_eq_ok
  · rintro ⟨es, hes, rfl⟩
    exact readAll_of_forall₂ hes

/-- Several terms are read if each of them is. -/
theorem exists_forall₂_read {terms : List String} (h : ∀ term ∈ terms, ∃ e, read term = .ok e) :
    ∃ es, List.Forall₂ (fun term e => read term = .ok e) terms es := by
  induction terms with
  | nil => exact ⟨[], .nil⟩
  | cons term terms ih =>
    obtain ⟨⟨e, he⟩, hterms⟩ := List.forall_mem_cons.1 h
    obtain ⟨es, hes⟩ := ih hterms
    exact ⟨e :: es, .cons he hes⟩

theorem readAll_cons_of_error {term : String} {error : Error} (h : read term = .error error)
    (terms : List String) : readAll (term :: terms) = .error error := by
  rw [readAll, List.mapM_cons, h]
  rfl

theorem readAll_cons_eq_error_iff {term : String} {e : Expression} (h : read term = .ok e)
    {terms : List String} {error : Error} :
    readAll (term :: terms) = .error error ↔ readAll terms = .error error := by
  rw [readAll, readAll, List.mapM_cons, h]
  cases terms.mapM read with
  | error error' => exact Iff.rfl
  | ok es => exact ⟨fun h => (nomatch h), fun h => (nomatch h)⟩

/-- A place in a list with only `P` in front of it is the head, or it is behind a head with `P`. -/
theorem exists_place_cons_iff {α : Type} {P Q : α → Prop} {a : α} {as : List α} :
    (∃ before b after, a :: as = before ++ b :: after ∧ (∀ c ∈ before, P c) ∧ Q b) ↔
      Q a ∨ P a ∧ ∃ before b after, as = before ++ b :: after ∧ (∀ c ∈ before, P c) ∧ Q b := by
  constructor
  · rintro ⟨before, b, after, heq, hbefore, hb⟩
    cases before with
    | nil =>
      obtain ⟨rfl, -⟩ := List.cons.inj heq
      exact .inl hb
    | cons c before =>
      obtain ⟨rfl, rfl⟩ := List.cons.inj heq
      obtain ⟨ha, hbefore⟩ := List.forall_mem_cons.1 hbefore
      exact .inr ⟨ha, before, b, after, rfl, hbefore, hb⟩
  · rintro (ha | ⟨ha, before, b, after, rfl, hbefore, hb⟩)
    · exact ⟨[], a, as, rfl, by simp, ha⟩
    · exact ⟨a :: before, b, after, rfl, List.forall_mem_cons.2 ⟨ha, hbefore⟩, hb⟩

/-- **The first term that is an error decides the error of several.** -/
theorem readAll_eq_error_iff {terms : List String} {error : Error} :
    readAll terms = .error error ↔
      ∃ before term after, terms = before ++ term :: after ∧
        (∀ other ∈ before, ∃ e, read other = .ok e) ∧ read term = .error error := by
  induction terms with
  | nil =>
    constructor
    · intro h
      cases h
    · rintro ⟨before, term, after, h, -⟩
      simp at h
  | cons term terms ih =>
    rw [exists_place_cons_iff, ← ih]
    cases hterm : read term with
    | error error' => simp [readAll_cons_of_error hterm]
    | ok e => simp [readAll_cons_eq_error_iff hterm]

/-! ## Terms and texts -/

/-- **Terms are read by the grammar and no other text is.** -/
theorem read_readAll_iff (term : String) (terms : List String) :
    ((∀ e, read term = .ok e ↔ ∃ p, IsTerm term p ∧ p.value ≠ [] ∧ p.Asks e) ∧
      (∀ p q, IsTerm term p → IsTerm term q → p = q) ∧
      (∀ p, IsTerm term p →
        ∃ name, p.text = name ++ p.operator.char :: p.value ∧ ∀ c ∈ name, isOperator c = false) ∧
      ∀ error, read term = .error error ↔
        (∃ p, IsTerm term p ∧ p.value = []) ∧ error = .emptyValue term ∨
          (¬∃ p, IsTerm term p) ∧ error = .malformed term) ∧
    ((∃ query, readAll terms = .ok query) ↔ ∀ term ∈ terms, ∃ e, read term = .ok e) ∧
    (∀ query, readAll terms = .ok query ↔
      ∃ es, List.Forall₂ (fun term e => read term = .ok e) terms es ∧ Joined es query) ∧
    ∀ error, readAll terms = .error error ↔
      ∃ before term after, terms = before ++ term :: after ∧
        (∀ other ∈ before, ∃ e, read other = .ok e) ∧ read term = .error error := by
  refine ⟨⟨fun e => read_eq_ok_iff_asks, fun p q => IsTerm.unique,
    fun p => IsTerm.exists_text_eq, fun error => read_eq_error_iff⟩, ?_,
    fun query => readAll_eq_ok_iff, fun error => readAll_eq_error_iff⟩
  constructor
  · rintro ⟨query, h⟩ term hterm
    obtain ⟨es, hes, -⟩ := readAll_eq_ok h
    exact exists_read_of_mem hes hterm
  · intro h
    obtain ⟨es, hes⟩ := exists_forall₂_read h
    exact ⟨conjunction es, readAll_of_forall₂ hes⟩

/-- A negated term with blanks around it and operators in its value; behind it a term without a
value, and one without an operator. -/
theorem read_readAll_iff_blanks :
    let term := "\u3000!x-1=!sn~a b \n"
    let p : Parts := ⟨true, "x-1".toList, .equals, "!sn~a b".toList⟩
    (IsTerm term p ∧ ∀ q, IsTerm term q → q = p) ∧
      read term = .ok (.not (.equals "x-1" "!sn~a b")) ∧
      readAll [term, "sn=\t", "sn"] = .error (.emptyValue "sn=\t") ∧
      readAll [term] = .ok (some (.not (.equals "x-1" "!sn~a b"))) := by
  intro term p
  obtain ⟨⟨hok, hunique, -, -⟩, -, hall, -⟩ := read_readAll_iff term [term]
  have hterm : IsTerm term p := isTerm_iff.2 (by decide)
  have hread : read term = .ok (.not (.equals "x-1" "!sn~a b")) :=
    (hok _).2 ⟨p, hterm, by decide, .negated .equals⟩
  obtain ⟨⟨-, -, -, herror⟩, -, -, hfirst⟩ := read_readAll_iff "sn=\t" [term, "sn=\t", "sn"]
  have hempty : read "sn=\t" = .error (.emptyValue "sn=\t") :=
    (herror _).2 (.inl ⟨⟨⟨false, "sn".toList, .equals, []⟩, isTerm_iff.2 (by decide), rfl⟩, rfl⟩)
  refine ⟨⟨hterm, fun q hq => hunique q p hq hterm⟩, hread, ?_, ?_⟩
  · exact (hfirst _).2 ⟨[term], "sn=\t", ["sn"], rfl, by simpa using ⟨_, hread⟩, hempty⟩
  · exact (hall _).2 ⟨_, .cons hread .nil, .one _⟩

end DirectoryLookup.Term
