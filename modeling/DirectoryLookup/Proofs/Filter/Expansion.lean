import DirectoryLookup.Proofs.Filter.Grammar
import Mathlib.Tactic.Common

/-!
# What the text of a filter says

A query in terms of fields stands for a filter in terms of attributes, which is written as text.
This module says what that filter is without building it (`Expansion`), and that it is all that
can be read from the text.

**Expansion.** Groups keep their parts in their order and negations their part. A group without
parts becomes the test that every entry passes. A condition on a field becomes the same condition on
each of its attributes: alone if there is one attribute, else as alternatives in the order declared.

**Theorem (`written_compile_iff`).** With escaped values, and names of attributes that have no
character of the grammar in them, the compiled text writes one filter, and that is the expansion of
the query, whatever the values are.

The proof compares both sides with the filter that compilation builds. What it prints is written in
the grammar, so by unambiguity nothing else is; and the expansion of an expression is unique.
-/

namespace DirectoryLookup

namespace Expression

mutual

/-- The field and the value of each condition, from left to right. -/
def conditions : Expression → List (String × String)
  | and parts | or parts => conditionsOfAll parts
  | not part => conditions part
  | equals field value | contains field value => [(field, value)]

/-- The conditions of several expressions. -/
def conditionsOfAll : List Expression → List (String × String)
  | [] => []
  | e :: es => conditions e ++ conditionsOfAll es

end

theorem conditionsOfAll_eq_flatMap (es : List Expression) :
    conditionsOfAll es = es.flatMap conditions := by
  induction es with
  | nil => simp [conditionsOfAll]
  | cons e es ih => simp [conditionsOfAll, ih]

end Expression

/-- The attributes that a condition on a field is about. A field without any, known or not, is
taken for the attribute of its name. -/
def Registry.attributesUnder (r : Registry) (field : String) : List String :=
  match (r.attributesForName? field).getD [] with
  | [] => [field]
  | attrs => attrs

namespace Filter

/-- Every attribute that the conditions of an expression are about has a name that can be read back
from a filter. -/
def HasNames (r : Registry) (e : Expression) : Prop :=
  ∀ c ∈ e.conditions, ∀ a ∈ r.attributesUnder c.1, IsName a

instance (r : Registry) (e : Expression) : Decidable (HasNames r e) :=
  List.decidableBAll _ _

/-! ## The expansion of an expression -/

/-- Several filters of which any will do, as one: a single one stays as it is. -/
inductive Alternatives : List Filter → Filter → Prop
  | one (f : Filter) : Alternatives [f] f
  | several {fs : List Filter} : 2 ≤ fs.length → Alternatives fs (.any fs)

/-- `Expansion r e f`: the filter `f` says in terms of attributes what `e` says of fields. -/
inductive Expansion (r : Registry) : Expression → Filter → Prop
  | emptyAnd : Expansion r (.and []) (.present "objectClass")
  | emptyOr : Expansion r (.or []) (.present "objectClass")
  | and {es : List Expression} {fs : List Filter} :
      es ≠ [] → List.Forall₂ (Expansion r) es fs → Expansion r (.and es) (.all fs)
  | or {es : List Expression} {fs : List Filter} :
      es ≠ [] → List.Forall₂ (Expansion r) es fs → Expansion r (.or es) (.any fs)
  | not {e : Expression} {f : Filter} : Expansion r e f → Expansion r (.not e) (.not f)
  | equals {field value : String} {f : Filter} :
      Alternatives ((r.attributesUnder field).map fun a => .equal a value) f →
      Expansion r (.equals field value) f
  | contains {field value : String} {f : Filter} :
      Alternatives ((r.attributesUnder field).map fun a => .contains a value) f →
      Expansion r (.contains field value) f

variable {r : Registry}

theorem Alternatives.unique {fs : List Filter} {f g : Filter} (hf : Alternatives fs f)
    (hg : Alternatives fs g) : f = g := by
  cases hf with
  | one =>
    cases hg with
    | one => rfl
    | several h => simp at h
  | several h =>
    cases hg with
    | one => simp at h
    | several => rfl

theorem alternatives_overAttributes (r : Registry) (field : String) (clause : String → Filter) :
    Alternatives ((r.attributesUnder field).map clause) (overAttributes r field clause) := by
  unfold overAttributes Registry.attributesUnder
  rcases r.attributesForName? field with _ | _ | ⟨a, _ | ⟨b, attrs⟩⟩
  · exact .one _
  · exact .one _
  · exact .one _
  · exact .several (by simp)

theorem ofExpression_and {es : List Expression} (h : es ≠ []) :
    ofExpression r (.and es) = .all (es.map (ofExpression r)) := by
  cases es with
  | nil => exact absurd rfl h
  | cons e es => rw [ofExpression, ofExpressions_eq_map]

theorem ofExpression_or {es : List Expression} (h : es ≠ []) :
    ofExpression r (.or es) = .any (es.map (ofExpression r)) := by
  cases es with
  | nil => exact absurd rfl h
  | cons e es => rw [ofExpression, ofExpressions_eq_map]

/-- Induction on an expression along with the filter that is built for it. -/
theorem ofExpression_induction {P : Expression → Filter → Prop}
    (emptyAnd : P (.and []) everything) (emptyOr : P (.or []) everything)
    (and : ∀ {es}, es ≠ [] → (∀ e ∈ es, P e (ofExpression r e)) →
      P (.and es) (.all (es.map (ofExpression r))))
    (or : ∀ {es}, es ≠ [] → (∀ e ∈ es, P e (ofExpression r e)) →
      P (.or es) (.any (es.map (ofExpression r))))
    (not : ∀ {e}, P e (ofExpression r e) → P (.not e) (.not (ofExpression r e)))
    (equals : ∀ field value,
      P (.equals field value) (overAttributes r field fun a => .equal a value))
    (contains : ∀ field value,
      P (.contains field value) (overAttributes r field fun a => .contains a value))
    (e : Expression) : P e (ofExpression r e) := by
  cases e with
  | and es =>
    by_cases h : es = []
    · subst h
      rw [ofExpression]
      exact emptyAnd
    · rw [ofExpression_and h]
      exact and h fun e _ => ofExpression_induction emptyAnd emptyOr and or not equals contains e
  | or es =>
    by_cases h : es = []
    · subst h
      rw [ofExpression]
      exact emptyOr
    · rw [ofExpression_or h]
      exact or h fun e _ => ofExpression_induction emptyAnd emptyOr and or not equals contains e
  | not e =>
    rw [ofExpression]
    exact not (ofExpression_induction emptyAnd emptyOr and or not equals contains e)
  | equals field value =>
    rw [ofExpression]
    exact equals field value
  | contains field value =>
    rw [ofExpression]
    exact contains field value
termination_by e

/-- The filter that is built for an expression expands it. -/
theorem expansion_ofExpression (r : Registry) (e : Expression) :
    Expansion r e (ofExpression r e) := by
  have parts {es : List Expression} (ih : ∀ e ∈ es, Expansion r e (ofExpression r e)) :
      List.Forall₂ (Expansion r) es (es.map (ofExpression r)) := by
    rw [List.forall₂_map_right_iff, List.forall₂_same]
    exact ih
  induction e using ofExpression_induction (r := r) with
  | emptyAnd => exact .emptyAnd
  | emptyOr => exact .emptyOr
  | and h ih => exact .and h (parts ih)
  | or h ih => exact .or h (parts ih)
  | not ih => exact .not ih
  | equals field value => exact .equals (alternatives_overAttributes r field _)
  | contains field value => exact .contains (alternatives_overAttributes r field _)

/-- **An expression expands to one filter**, the one that is built for it. -/
theorem expansion_iff {e : Expression} {f : Filter} :
    Expansion r e f ↔ f = ofExpression r e := by
  refine ⟨fun h => ?_, fun h => h ▸ expansion_ofExpression r e⟩
  have parts {es : List Expression} {fs : List Filter}
      (ih : ∀ e ∈ es, ∀ {f}, Expansion r e f → f = ofExpression r e)
      (h : List.Forall₂ (Expansion r) es fs) : fs = es.map (ofExpression r) := by
    induction h with
    | nil => rfl
    | cons he _ ihs =>
      rw [ih _ List.mem_cons_self he, ihs fun e hmem => ih e (List.mem_cons_of_mem _ hmem)]
      rfl
  cases h with
  | emptyAnd => rw [ofExpression, everything]
  | emptyOr => rw [ofExpression, everything]
  | and hne h =>
    rw [ofExpression_and hne, parts (fun e _ => expansion_iff.1) h]
  | or hne h =>
    rw [ofExpression_or hne, parts (fun e _ => expansion_iff.1) h]
  | not h => rw [ofExpression, expansion_iff.1 h]
  | equals h => exact h.unique (by rw [ofExpression]; exact alternatives_overAttributes r _ _)
  | contains h => exact h.unique (by rw [ofExpression]; exact alternatives_overAttributes r _ _)
termination_by e

/-! ## What compilation writes -/

/-- A run of filters, each written by its text, is written by their texts in a row. -/
theorem forall₂_written_map {fs : List Filter}
    (h : ∀ f ∈ fs, Written f (f.render .escaped)) :
    List.Forall₂ Written fs (fs.map (render .escaped)) := by
  rw [List.forall₂_map_right_iff, List.forall₂_same]
  exact h

theorem written_render_all {fs : List Filter} (hne : fs ≠ [])
    (h : ∀ f ∈ fs, Written f (f.render .escaped)) :
    Written (.all fs) (render .escaped (.all fs)) := by
  rw [render, renderAll_eq_flatMap, List.flatMap_def]
  exact .all hne (forall₂_written_map h)

theorem written_render_any {fs : List Filter} (hne : fs ≠ [])
    (h : ∀ f ∈ fs, Written f (f.render .escaped)) :
    Written (.any fs) (render .escaped (.any fs)) := by
  rw [render, renderAll_eq_flatMap, List.flatMap_def]
  exact .any hne (forall₂_written_map h)

theorem Alternatives.written {fs : List Filter} {f : Filter} (hf : Alternatives fs f)
    (h : ∀ g ∈ fs, Written g (g.render .escaped)) : Written f (f.render .escaped) := by
  cases hf with
  | one => exact h _ List.mem_cons_self
  | several hlen =>
    refine written_render_any ?_ h
    rintro rfl
    simp at hlen

theorem written_everything : Written everything (everything.render .escaped) :=
  .clause (by decide) .present

theorem written_render_equal {attr : String} (h : IsName attr) (value : String) :
    Written (.equal attr value) (render .escaped (.equal attr value)) := by
  refine .clause h (.equal ?_)
  rw [toList_apply_escaped]
  exact spells_escape _

theorem written_render_contains {attr : String} (h : IsName attr) (value : String) :
    Written (.contains attr value) (render .escaped (.contains attr value)) := by
  refine .clause h (.contains ?_)
  rw [toList_apply_escaped]
  exact spells_escape _

theorem HasNames.of_mem {es : List Expression}
    (h : ∀ c ∈ Expression.conditionsOfAll es, ∀ a ∈ r.attributesUnder c.1, IsName a)
    {e : Expression} (he : e ∈ es) : HasNames r e := by
  intro c hc
  rw [Expression.conditionsOfAll_eq_flatMap] at h
  exact h c (List.mem_flatMap.2 ⟨e, he, hc⟩)

/-- The filter that is built for an expression is written by its own text. -/
theorem written_ofExpression {e : Expression} (h : HasNames r e) :
    Written (ofExpression r e) ((ofExpression r e).render .escaped) := by
  have clauses {field : String} {clause : String → Filter}
      (hnames : ∀ a ∈ r.attributesUnder field, IsName a)
      (hc : ∀ a, IsName a → Written (clause a) ((clause a).render .escaped)) :
      Written (overAttributes r field clause)
        ((overAttributes r field clause).render .escaped) := by
    refine (alternatives_overAttributes r field clause).written fun g hg => ?_
    obtain ⟨a, ha, rfl⟩ := List.mem_map.1 hg
    exact hc a (hnames a ha)
  have parts {es : List Expression} (h : HasNames r (.and es))
      (ih : ∀ e ∈ es, HasNames r e →
        Written (ofExpression r e) ((ofExpression r e).render .escaped)) :
      ∀ f ∈ es.map (ofExpression r), Written f (f.render .escaped) := by
    intro f hf
    obtain ⟨e, he, rfl⟩ := List.mem_map.1 hf
    exact ih e he (HasNames.of_mem h he)
  induction e using ofExpression_induction (r := r) with
  | emptyAnd => exact written_everything
  | emptyOr => exact written_everything
  | and hne ih => exact written_render_all (by simpa using hne) (parts h ih)
  | or hne ih => exact written_render_any (by simpa using hne) (parts h ih)
  | not ih =>
    rw [render]
    exact .not (ih h)
  | equals field value =>
    exact clauses (h (field, value) List.mem_cons_self) fun a ha => written_render_equal ha value
  | contains field value =>
    exact clauses (h (field, value) List.mem_cons_self) fun a ha => written_render_contains ha value

/-- **The text of a query writes its expansion and no other filter**, whatever values the query
has. -/
theorem written_compile_iff (r : Registry) (e : Expression) (h : HasNames r e) :
    (∃! f, Written f (compile r .escaped (some e)).toList) ∧
      ∀ f, Written f (compile r .escaped (some e)).toList ↔ Expansion r e f := by
  have htext : (compile r .escaped (some e)).toList = (ofExpression r e).render .escaped := by
    rw [compile, String.toList_ofList, ofQuery]
  have hwritten := written_ofExpression h
  have hunique : ∀ f, Written f ((ofExpression r e).render .escaped) → f = ofExpression r e :=
    fun f hf => hf.unique hwritten
  rw [htext]
  refine ⟨⟨ofExpression r e, hwritten, hunique⟩, fun f => ?_⟩
  rw [expansion_iff]
  exact ⟨hunique f, fun hf => hf ▸ hwritten⟩

/-- A value that imitates the end of its clause, an escape, a wildcard and another clause. -/
theorem written_compile_iff_forged :
    let r := (Registry.empty.declare .lastName ["sn"]).declare .email ["mail", "rfc822Mailbox"]
    let e := Expression.and [.equals "email" ")(\\2a*|(uid=*", .not (.contains "lastName" ""), .or [],
      .equals "objectClass" "*"]
    HasNames r e ∧
      (∃! f, Written f (compile r .escaped (some e)).toList) ∧
        ∀ f, Written f (compile r .escaped (some e)).toList ↔ Expansion r e f := by
  intro r e
  have h : HasNames r e := by decide
  exact ⟨h, written_compile_iff r e h⟩

end Filter

end DirectoryLookup
