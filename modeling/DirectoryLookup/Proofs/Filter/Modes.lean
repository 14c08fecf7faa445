import DirectoryLookup.Proofs.Filter.Encoding
import DirectoryLookup.Proofs.Filter.Expansion

/-!
# Where the two ways to put in values differ

A filter can be written with its values as they are, or with their reserved characters escaped.

**Theorem (`compile_verbatim_eq_iff`).** An expression has the same text both ways exactly when no
value of a condition has a reserved character in it. The names of fields and attributes have no part
in this.

That escapes in one place cannot make up for others elsewhere follows from the length of the text
(`length_render_escaped`): each reserved character adds two characters to it, once in every clause
that its value is in. There is such a clause, because a condition is about one attribute at least.
-/

namespace DirectoryLookup

/-- A condition is about one attribute at least. -/
theorem Registry.attributesUnder_ne_nil (r : Registry) (field : String) :
    r.attributesUnder field ≠ [] := by
  unfold attributesUnder
  split
  · simp
  · assumption

namespace Filter

/-! ## Values -/

theorem length_apply_escaped (value : String) :
    (Escaping.escaped.apply value).toList.length =
      (Escaping.verbatim.apply value).toList.length + 2 * value.toList.countP isReserved := by
  rw [toList_apply_escaped, length_escape, Escaping.apply]

theorem apply_escaped {value : String} (h : ∀ c ∈ value.toList, isReserved c = false) :
    Escaping.escaped.apply value = Escaping.verbatim.apply value := by
  rw [Escaping.apply, Escaping.apply, escape_eq_self_iff.2 h, String.ofList_toList]

/-! ## Filters -/

mutual

/-- The values of the clauses of a filter, from left to right. -/
def values : Filter → List String
  | all parts | any parts => valuesOfAll parts
  | not part => values part
  | present _ => []
  | equal _ value | contains _ value => [value]

/-- The values of the clauses of several filters. -/
def valuesOfAll : List Filter → List String
  | [] => []
  | f :: fs => values f ++ valuesOfAll fs

end

mutual

/-- **Escapes lengthen the text of a filter**, by two characters for each that is reserved. -/
theorem length_render_escaped (f : Filter) :
    (f.render .escaped).length =
      (f.render .verbatim).length + 2 * (f.values.flatMap String.toList).countP isReserved := by
  cases f with
  | all fs =>
    have h := length_renderAll_escaped fs
    simp only [render, values, List.length_append, List.length_cons, List.length_nil, h]
    omega
  | any fs =>
    have h := length_renderAll_escaped fs
    simp only [render, values, List.length_append, List.length_cons, List.length_nil, h]
    omega
  | not f =>
    have h := length_render_escaped f
    simp only [render, values, List.length_append, List.length_cons, List.length_nil, h]
    omega
  | present a => rfl
  | equal a value =>
    have h := length_apply_escaped value
    simp only [render, values, clauseText, List.length_append, List.length_cons, h,
      List.flatMap_singleton]
    omega
  | contains a value =>
    have h := length_apply_escaped value
    simp only [render, values, clauseText, List.length_append, List.length_cons, h,
      List.flatMap_singleton]
    omega

theorem length_renderAll_escaped (fs : List Filter) :
    (renderAll .escaped fs).length =
      (renderAll .verbatim fs).length +
        2 * ((valuesOfAll fs).flatMap String.toList).countP isReserved := by
  cases fs with
  | nil => rfl
  | cons f fs =>
    have hf := length_render_escaped f
    have hfs := length_renderAll_escaped fs
    simp only [renderAll, valuesOfAll, List.length_append, List.flatMap_append, List.countP_append,
      hf, hfs]
    omega

end

mutual

/-- A filter whose values need no escapes has the same text both ways. -/
theorem render_escaped_of_forall {f : Filter}
    (h : ∀ v ∈ f.values, ∀ c ∈ v.toList, isReserved c = false) :
    f.render .escaped = f.render .verbatim := by
  cases f with
  | all fs => simp only [render, renderAll_escaped_of_forall h]
  | any fs => simp only [render, renderAll_escaped_of_forall h]
  | not f =>
    have hf : ∀ v ∈ f.values, ∀ c ∈ v.toList, isReserved c = false := h
    simp only [render, render_escaped_of_forall hf]
  | present a => simp only [render]
  | equal a value => simp only [render, apply_escaped (h value List.mem_cons_self)]
  | contains a value => simp only [render, apply_escaped (h value List.mem_cons_self)]

theorem renderAll_escaped_of_forall {fs : List Filter}
    (h : ∀ v ∈ valuesOfAll fs, ∀ c ∈ v.toList, isReserved c = false) :
    renderAll .escaped fs = renderAll .verbatim fs := by
  cases fs with
  | nil => rfl
  | cons f fs =>
    obtain ⟨hf, hfs⟩ := List.forall_mem_append.1 h
    rw [renderAll, renderAll, render_escaped_of_forall hf, renderAll_escaped_of_forall hfs]

end

/-- **A filter has the same text both ways exactly when no value in it needs an escape.** -/
theorem render_verbatim_eq_iff {f : Filter} :
    f.render .verbatim = f.render .escaped ↔
      ∀ v ∈ f.values, ∀ c ∈ v.toList, isReserved c = false := by
  constructor
  · intro h v hv c hc
    have hlength := length_render_escaped f
    have hcount : (f.values.flatMap String.toList).countP isReserved = 0 := by
      rw [← h] at hlength
      omega
    exact Bool.eq_false_iff.2 (List.countP_eq_zero.1 hcount c (List.mem_flatMap.2 ⟨v, hv, hc⟩))
  · intro h
    exact (render_escaped_of_forall h).symm

/-! ## Expressions -/

theorem valuesOfAll_eq_flatMap (fs : List Filter) : valuesOfAll fs = fs.flatMap values := by
  induction fs with
  | nil => rfl
  | cons f fs ih => rw [valuesOfAll, ih, List.flatMap_cons]

theorem Alternatives.values_eq {fs : List Filter} {f : Filter} (h : Alternatives fs f) :
    f.values = valuesOfAll fs := by
  cases h with
  | one => rw [valuesOfAll, valuesOfAll, List.append_nil]
  | several => rw [values]

variable (r : Registry)

/-- The clauses of a condition all have its value. -/
theorem values_overAttributes {field value : String} {clause : String → Filter}
    (h : ∀ attr, (clause attr).values = [value]) :
    (overAttributes r field clause).values = (r.attributesUnder field).map fun _ => value := by
  rw [(alternatives_overAttributes r field clause).values_eq, valuesOfAll_eq_flatMap,
    List.flatMap_map, List.map_eq_flatMap]
  simp only [h]

/-- **The values in the filter of an expression** are those of its conditions, each once for every
attribute that the condition is about. -/
theorem values_ofExpression (e : Expression) :
    (ofExpression r e).values =
      e.conditions.flatMap fun c => (r.attributesUnder c.1).map fun _ => c.2 := by
  have parts {es : List Expression}
      (ih : ∀ e ∈ es, (ofExpression r e).values =
        e.conditions.flatMap fun c => (r.attributesUnder c.1).map fun _ => c.2) :
      valuesOfAll (es.map (ofExpression r)) =
        (Expression.conditionsOfAll es).flatMap fun c =>
          (r.attributesUnder c.1).map fun _ => c.2 := by
    rw [valuesOfAll_eq_flatMap, Expression.conditionsOfAll_eq_flatMap, List.flatMap_map,
      List.flatMap_assoc]
    exact List.flatMap_congr ih
  induction e using ofExpression_induction (r := r) with
  | emptyAnd => rfl
  | emptyOr => rfl
  | and _ ih => exact parts ih
  | or _ ih => exact parts ih
  | not ih => exact ih
  | equals field value =>
    rw [values_overAttributes r fun _ => by rw [values], Expression.conditions,
      List.flatMap_singleton]
  | contains field value =>
    rw [values_overAttributes r fun _ => by rw [values], Expression.conditions,
      List.flatMap_singleton]

/-- **The two ways to put in values differ only where a value needs an escape.** -/
theorem compile_verbatim_eq_iff (e : Expression) :
    compile r .verbatim (some e) = compile r .escaped (some e) ↔
      ∀ condition ∈ e.conditions, ∀ c ∈ condition.2.toList, isReserved c = false := by
  rw [compile, compile, String.ofList_inj, ofQuery, render_verbatim_eq_iff, values_ofExpression]
  constructor
  · intro h condition hcondition
    obtain ⟨attr, hattr⟩ := List.exists_mem_of_ne_nil _ (r.attributesUnder_ne_nil condition.1)
    exact h _ (List.mem_flatMap.2 ⟨condition, hcondition, List.mem_map.2 ⟨attr, hattr, rfl⟩⟩)
  · intro h v hv
    obtain ⟨condition, hcondition, hv⟩ := List.mem_flatMap.1 hv
    obtain ⟨attr, -, rfl⟩ := List.mem_map.1 hv
    exact h condition hcondition

/-- A name is never escaped. -/
example : compile .empty .verbatim (some (.equals "a*(b" "x")) =
    compile .empty .escaped (some (.equals "a*(b" "x")) := by
  decide

end Filter

end DirectoryLookup
