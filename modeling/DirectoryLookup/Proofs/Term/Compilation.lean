import DirectoryLookup.Proofs.Filter.Expansion
import DirectoryLookup.Proofs.Registry.Overrides
import DirectoryLookup.Proofs.Term.Grammar

/-!
# The filters of terms

What a term asks for is told from its text alone (`Node`): cut at its first operator, it has the
name of a field before it and a value behind it, and a `!` in front negates it. The value is taken
as it is, further operators, parentheses, stars and all.

**Theorem (`written_compile_readAll`).** The filter of several terms, with escaped values and the
schema of a person, writes the conjunction of what the terms ask for, one part for each term and in
their order; what a single term asks for; or without terms the test that every entry passes. What
one term asks for has no part in what the others do.
-/

namespace DirectoryLookup.Term

open DirectoryLookup.Filter (Alternatives HasNames IsName alternatives_overAttributes ofExpression
  ofQuery)

/-! ## What a term asks for -/

/-- The clause that an operator makes of an attribute and a value. -/
inductive Compares : Char → (String → String → Filter) → Prop
  | equal : Compares '=' Filter.equal
  | contains : Compares '~' Filter.contains

/-- The attributes that a name stands for: those a field of this name is declared with, in the order
declared, or if there is no such field the attribute of this name. -/
inductive Names (name : String) : List String → Prop
  | field {f : Field} : f.name = name → Names name (Aliases.read f.defaultAliases)
  | other : (∀ f : Field, f.name ≠ name) → Names name [name]

/-- `Condition text f`: the text, without a `!`, asks for `f`. -/
inductive Condition : List Char → Filter → Prop
  | mk {name value : List Char} {o : Char} {clause : String → String → Filter}
      {attrs : List String} {f : Filter} :
      '=' ∉ name → '~' ∉ name → Compares o clause → Names (String.ofList name) attrs →
      Alternatives (attrs.map fun attr => clause attr (String.ofList value)) f →
      Condition (name ++ o :: value) f

/-- `Node term f`: the term asks for `f`. -/
inductive Node (term : String) : Filter → Prop
  | plain {f : Filter} :
      (∀ text, Text.trim term.toList ≠ '!' :: text) → Condition (Text.trim term.toList) f →
      Node term f
  | negated {text : List Char} {f : Filter} :
      Text.trim term.toList = '!' :: text → Condition text f → Node term (.not f)

/-- What several filters ask for together. -/
inductive Together : List Filter → Filter → Prop
  | none : Together [] (.present "objectClass")
  | one (f : Filter) : Together [f] f
  | several {fs : List Filter} : 2 ≤ fs.length → Together fs (.all fs)

/-! ## Names -/

theorem attributesForName?_person {f : Field} :
    Registry.person.attributesForName? f.name = Registry.person.aliases f := by
  rw [Registry.attributesForName?, Field.ofName?_name, Option.bind_some]

theorem attributesUnder_name (f : Field) :
    Registry.person.attributesUnder f.name = Aliases.read f.defaultAliases := by
  have hattributes : (Registry.person.aliases f).getD [] = Aliases.read f.defaultAliases :=
    Registry.attributesFor_table Field.defaultAliases f
  have hne := Registry.read_defaultAliases_ne_nil f
  rw [Registry.attributesUnder, attributesForName?_person, hattributes]
  split
  · next h => exact absurd h hne
  · rfl

theorem attributesUnder_of_forall_ne {name : String} (h : ∀ f : Field, f.name ≠ name) :
    Registry.person.attributesUnder name = [name] := by
  have hnone : Field.ofName? name = none := by
    cases hf : Field.ofName? name with
    | none => rfl
    | some f => exact absurd (Field.ofName?_eq_some_iff.1 hf) (h f)
  rw [Registry.attributesUnder, Registry.attributesForName?, hnone]
  rfl

/-- A name stands for the attributes that conditions on it are about. -/
theorem names_iff {name : String} {attrs : List String} :
    Names name attrs ↔ attrs = Registry.person.attributesUnder name := by
  constructor
  · rintro (⟨rfl⟩ | h)
    · rw [attributesUnder_name]
    · rw [attributesUnder_of_forall_ne h]
  · rintro rfl
    by_cases h : ∃ f : Field, f.name = name
    · obtain ⟨f, rfl⟩ := h
      rw [attributesUnder_name]
      exact .field rfl
    · rw [attributesUnder_of_forall_ne (not_exists.1 h)]
      exact .other (not_exists.1 h)

theorem isName_of_mem_read (f : Field) : ∀ attr ∈ Aliases.read f.defaultAliases, IsName attr := by
  cases f <;> decide +kernel

theorem isSpecial_of_isNameChar {c : Char} (h : isNameChar c = true) :
    Filter.isSpecial c = false := by
  have hspecial : ['(', ')', '=', '*', '\\', '&', '|', '!'].all (!isNameChar ·) = true := rfl
  refine Bool.eq_false_iff.2 fun hc => ?_
  have hnot := List.all_eq_true.1 hspecial c (of_decide_eq_true hc)
  rw [h] at hnot
  cases hnot

/-- The name of a field in a term can stand in a filter, whether or not there is such a field. -/
theorem IsFieldName.isName {name : List Char} {attrs : List String} (h : IsFieldName name)
    (hattrs : Names (String.ofList name) attrs) : ∀ attr ∈ attrs, IsName attr := by
  intro attr hattr
  cases hattrs with
  | field hf => exact isName_of_mem_read _ attr hattr
  | other _ =>
    obtain rfl := List.mem_singleton.1 hattr
    refine ⟨fun hempty => ?_, fun c hc => ?_⟩
    · obtain rfl := String.ofList_eq_empty_iff.1 hempty
      cases h
    · rw [String.toList_ofList] at hc
      exact isSpecial_of_isNameChar (h.isNameChar c hc)

/-! ## One term -/

/-- The clause that an operator makes. -/
def Operator.clause : Operator → String → String → Filter
  | equals => .equal
  | contains => .contains

theorem Operator.compares (o : Operator) : Compares o.char o.clause := by
  cases o with
  | equals => exact .equal
  | contains => exact .contains

theorem Compares.eq_clause {o : Operator} {clause : String → String → Filter}
    (h : Compares o.char clause) : clause = o.clause := by
  cases o with
  | equals =>
    obtain _ | _ := h
    rfl
  | contains =>
    obtain _ | _ := h
    rfl

theorem isOperator_char (o : Operator) : isOperator o.char = true := by
  cases o <;> rfl

theorem Compares.isOperator {c : Char} {clause : String → String → Filter} (h : Compares c clause) :
    isOperator c = true := by
  cases h <;> rfl

/-- The filter of the condition in a term has a clause for each attribute of its field. -/
theorem ofExpression_condition (r : Registry) (p : Parts) :
    ofExpression r p.condition = Filter.overAttributes r (String.ofList p.field) fun attr =>
      p.operator.clause attr (String.ofList p.value) := by
  obtain ⟨negated, field, operator, value⟩ := p
  cases operator <;> rw [Parts.condition, ofExpression] <;> rfl

/-- Without the `!`, the text of a term asks for the filter of its condition and nothing else. -/
theorem condition_iff {p : Parts} (hfit : p.Fit) {f : Filter} :
    Condition (p.field ++ p.operator.char :: p.value) f ↔
      f = ofExpression Registry.person p.condition := by
  have hname : ∀ c ∈ p.field, isOperator c = false := fun c hc =>
    not_isOperator_of_isNameChar (hfit.field.isNameChar c hc)
  have hexpansion := alternatives_overAttributes Registry.person (String.ofList p.field) fun attr =>
    p.operator.clause attr (String.ofList p.value)
  rw [ofExpression_condition]
  constructor
  · intro h
    generalize htext : p.field ++ p.operator.char :: p.value = text at h
    obtain @⟨name, value, o, clause, attrs, f, hequal, htilde, ho, hattrs, hf⟩ := h
    have hname' : ∀ c ∈ name, isOperator c = false := by
      intro c hc
      simp only [isOperator, Bool.or_eq_false_iff, beq_eq_false_iff_ne]
      exact ⟨fun heq => hequal (heq ▸ hc), fun heq => htilde (heq ▸ hc)⟩
    obtain ⟨rfl, rfl, rfl⟩ :=
      eq_of_append_operator_eq hname hname' (isOperator_char _) ho.isOperator htext
    obtain rfl := ho.eq_clause
    obtain rfl := names_iff.1 hattrs
    exact hf.unique hexpansion
  · rintro rfl
    have not_mem {c : Char} (hc : isOperator c = true) : c ∉ p.field := by
      intro hmem
      rw [hname c hmem] at hc
      cases hc
    exact .mk (not_mem rfl) (not_mem rfl) (Operator.compares _) (names_iff.2 rfl) hexpansion

/-- **A term that is read asks for the filter of its expression and nothing else.** -/
theorem node_iff {term : String} {e : Expression} (h : read term = .ok e) {f : Filter} :
    Node term f ↔ f = ofExpression Registry.person e := by
  obtain ⟨⟨negated, field, operator, value⟩, htext, hfit, -, rfl⟩ := read_eq_ok_iff.1 h
  have hcondition {f : Filter} := condition_iff hfit (f := f)
  cases negated with
  | true =>
    have hexpression :
        ofExpression Registry.person (Parts.expression ⟨true, field, operator, value⟩) =
          .not (ofExpression Registry.person (Parts.condition ⟨true, field, operator, value⟩)) := by
      rw [Parts.expression, if_pos rfl, ofExpression]
    have htext : Text.trim term.toList = '!' :: (field ++ operator.char :: value) := htext
    rw [hexpression]
    constructor
    · rintro (⟨hplain, -⟩ | ⟨htext', h⟩)
      · exact absurd htext (hplain _)
      · obtain ⟨-, rfl⟩ := List.cons.inj (htext.symm.trans htext')
        rw [hcondition.1 h]
    · rintro rfl
      exact .negated htext (hcondition.2 rfl)
  | false =>
    have htext : Text.trim term.toList = field ++ operator.char :: value := htext
    have hplain : ∀ text, Text.trim term.toList ≠ '!' :: text := by
      intro text
      rw [htext]
      exact hfit.field.ne_cons _ _
    rw [Parts.expression, if_neg Bool.false_ne_true]
    constructor
    · rintro (⟨-, h⟩ | ⟨htext', -⟩)
      · rw [htext] at h
        exact hcondition.1 h
      · exact absurd htext' (hplain _)
    · rintro rfl
      refine .plain hplain ?_
      rw [htext]
      exact hcondition.2 rfl

theorem hasNames_of_read {term : String} {e : Expression} (h : read term = .ok e) :
    HasNames Registry.person e := by
  obtain ⟨⟨negated, field, operator, value⟩, -, hfit, -, rfl⟩ := read_eq_ok_iff.1 h
  have hconditions : (Parts.expression ⟨negated, field, operator, value⟩).conditions =
      [(String.ofList field, String.ofList value)] := by
    cases negated <;> cases operator <;> rfl
  intro c hc
  rw [hconditions] at hc
  obtain rfl := List.mem_singleton.1 hc
  exact hfit.field.isName (names_iff.2 rfl)

/-! ## Several terms -/

variable {terms : List String} {es : List Expression}

theorem hasNames_of_conjunction
    (h : List.Forall₂ (fun term e => read term = .ok e) terms es) {e : Expression}
    (he : conjunction es = some e) : HasNames Registry.person e := by
  have hes : ∀ e ∈ es, HasNames Registry.person e := by
    clear he
    induction h with
    | nil => exact fun e he => absurd he List.not_mem_nil
    | cons hterm _ ih => exact List.forall_mem_cons.2 ⟨hasNames_of_read hterm, ih⟩
  unfold conjunction at he
  split at he
  · cases he
  · obtain rfl := Option.some.inj he
    exact hes _ List.mem_cons_self
  · obtain rfl := Option.some.inj he
    intro c hc
    rw [Expression.conditions, Expression.conditionsOfAll_eq_flatMap] at hc
    obtain ⟨e, he, hc⟩ := List.mem_flatMap.1 hc
    exact hes e he c hc

/-- The filter of several expressions together is what their filters ask for together. -/
theorem together_iff (r : Registry) {f : Filter} :
    Together (es.map (ofExpression r)) f ↔ f = ofQuery r (conjunction es) := by
  match es with
  | [] =>
    refine ⟨?_, fun h => h ▸ .none⟩
    rintro (_ | _ | h)
    · rfl
    · simp at h
  | [e] =>
    refine ⟨?_, fun h => h ▸ .one _⟩
    rintro (_ | _ | h)
    · rfl
    · simp at h
  | e :: e' :: es =>
    have hall : ofQuery r (conjunction (e :: e' :: es)) =
        .all ((e :: e' :: es).map (ofExpression r)) :=
      Filter.ofExpression_and (List.cons_ne_nil _ _)
    rw [hall]
    refine ⟨?_, fun h => h ▸ .several (by simp)⟩
    rintro (_ | _ | _)
    rfl

/-- The text of the filter of a query writes this filter and no other. -/
theorem written_compile_iff_eq {r : Registry} {query : Option Expression}
    (h : ∀ e, query = some e → HasNames r e) {f : Filter} :
    Filter.Written f (Filter.compile r .escaped query).toList ↔ f = ofQuery r query := by
  have hwritten : Filter.Written (ofQuery r query) ((ofQuery r query).render .escaped) := by
    cases query with
    | none => exact Filter.written_everything
    | some e => exact Filter.written_ofExpression (h e rfl)
  rw [Filter.compile, String.toList_ofList]
  exact ⟨fun hf => hf.unique hwritten, fun hf => hf ▸ hwritten⟩

/-- The filter of what a term is read as. -/
def filterOf (term : String) : Filter :=
  match read term with
  | .ok e => ofExpression Registry.person e
  | .error _ => .everything

theorem filterOf_of_read {term : String} {e : Expression} (h : read term = .ok e) :
    filterOf term = ofExpression Registry.person e := by
  rw [filterOf, h]

theorem map_filterOf (h : List.Forall₂ (fun term e => read term = .ok e) terms es) :
    terms.map filterOf = es.map (ofExpression Registry.person) := by
  induction h with
  | nil => rfl
  | cons hterm _ ih => rw [List.map_cons, List.map_cons, filterOf_of_read hterm, ih]

variable {query : Option Expression}

theorem node_iff_of_mem (h : readAll terms = .ok query) {term : String} (hterm : term ∈ terms)
    (f : Filter) : Node term f ↔ f = filterOf term := by
  obtain ⟨es, hes, -⟩ := readAll_eq_ok h
  obtain ⟨e, he⟩ := exists_read_of_mem hes hterm
  rw [node_iff he, filterOf_of_read he]

/-- The text of the filter of several terms writes what they ask for together. -/
theorem written_iff_together (h : readAll terms = .ok query) (f : Filter) :
    Filter.Written f (Filter.compile Registry.person .escaped query).toList ↔
      Together (terms.map filterOf) f := by
  obtain ⟨es, hes, rfl⟩ := readAll_eq_ok h
  rw [written_compile_iff_eq fun e he => hasNames_of_conjunction hes he, map_filterOf hes,
    together_iff]

theorem existsUnique_written (h : readAll terms = .ok query) :
    ∃! f, Filter.Written f (Filter.compile Registry.person .escaped query).toList := by
  obtain ⟨es, hes, rfl⟩ := readAll_eq_ok h
  have hiff (f : Filter) := written_compile_iff_eq (f := f) fun e he =>
    hasNames_of_conjunction hes he
  exact ⟨_, (hiff _).2 rfl, fun f hf => (hiff f).1 hf⟩

/-- **Terms cannot interfere.** From the filter of several terms one filter is read, and it is what
the terms ask for together. Whatever stands in the place of one of them, the others ask for what
they did. -/
theorem written_compile_readAll (h : readAll terms = .ok query) :
    ∃ node : String → Filter,
      (∀ term ∈ terms, ∀ f, Node term f ↔ f = node term) ∧
      (∃! f, Filter.Written f (Filter.compile Registry.person .escaped query).toList) ∧
      (∀ f, Filter.Written f (Filter.compile Registry.person .escaped query).toList ↔
        Together (terms.map node) f) ∧
      ∀ before term after other query', terms = before ++ term :: after →
        readAll (before ++ other :: after) = .ok query' →
        ∃ g, Node other g ∧
          ∀ f, Filter.Written f (Filter.compile Registry.person .escaped query').toList ↔
            Together (before.map node ++ g :: after.map node) f := by
  refine ⟨filterOf, fun term => node_iff_of_mem h, existsUnique_written h, written_iff_together h,
    ?_⟩
  intro before term after other query' _ h'
  refine ⟨filterOf other, (node_iff_of_mem h' (by simp) _).2 rfl, fun f => ?_⟩
  rw [written_iff_together h', List.map_append, List.map_cons]

/-- Terms that imitate the end of their clause, an escape, another operator and a negation. -/
theorem written_compile_readAll_forged :
    let terms := ["!mail~*)(uid=*", "\u3000x-1=!sn=a\\2a ", "lastName=)|(~"]
    ∃ query, readAll terms = .ok query ∧ ∃ node : String → Filter,
      (∀ term ∈ terms, ∀ f, Node term f ↔ f = node term) ∧
      ∀ f, Filter.Written f (Filter.compile Registry.person .escaped query).toList ↔
        Together (terms.map node) f := by
  intro terms
  have h : readAll terms = .ok (some (.and [.not (.contains "mail" "*)(uid=*"),
      .equals "x-1" "!sn=a\\2a", .equals "lastName" ")|(~"])) := by rfl
  obtain ⟨node, hnode, -, hwritten, -⟩ := written_compile_readAll h
  exact ⟨_, h, node, hnode, hwritten⟩

end DirectoryLookup.Term
