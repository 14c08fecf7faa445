import DirectoryLookup.Proofs.Filter.Expansion

/-!
# Fields as shorthand for attributes

A condition on a field is shorthand for the same condition on each attribute that the field stands
for. `Expression.spelledOut` writes a query without this shorthand, as a query again: a condition on
a field with one attribute becomes a condition on this attribute, on a field with several a
disjunction, and on a name without any it stays.

**Theorem (`compile_spelledOut`).** With any registry a query has the text that the query spelled
out has with the empty registry. The empty registry takes every name for an attribute's own, so a
query is spelled out once only: an attribute with the name of a field is not taken for the field.

The two filters are the same already before they are written as text (`ofExpression_spelledOut`).
-/

namespace DirectoryLookup

namespace Expression

/-- A condition on a field in terms of the attributes that the field stands for: on a single one,
or on any of several. A name for which the registry has no attributes is kept. -/
def overAttributes (r : Registry) (field : String) (condition : String → Expression) :
    Expression :=
  match (r.attributesForName? field).getD [] with
  | [] => condition field
  | [attr] => condition attr
  | attrs => or (attrs.map condition)

mutual

/-- The query with each of its conditions in terms of attributes. -/
def spelledOut (r : Registry) : Expression → Expression
  | and parts => and (spelledOutAll r parts)
  | or parts => or (spelledOutAll r parts)
  | not part => not (spelledOut r part)
  | equals field value => overAttributes r field fun attr => equals attr value
  | contains field value => overAttributes r field fun attr => contains attr value

/-- Several queries spelled out. -/
def spelledOutAll (r : Registry) : List Expression → List Expression
  | [] => []
  | e :: es => spelledOut r e :: spelledOutAll r es

end

variable (r : Registry)

theorem spelledOutAll_eq_map (es : List Expression) :
    spelledOutAll r es = es.map (spelledOut r) := by
  induction es with
  | nil => rfl
  | cons e es ih => rw [spelledOutAll, ih, List.map_cons]

/-! ## The conditions of a query spelled out -/

/-- The conditions that stand in for one, each on an attribute of its field. -/
theorem conditions_overAttributes {field value : String} {condition : String → Expression}
    (h : ∀ attr, (condition attr).conditions = [(attr, value)]) :
    (overAttributes r field condition).conditions =
      (r.attributesUnder field).map fun attr => (attr, value) := by
  unfold overAttributes Registry.attributesUnder
  rcases (r.attributesForName? field).getD [] with _ | ⟨a, _ | ⟨b, attrs⟩⟩
  · exact h field
  · exact h a
  · show conditionsOfAll ((a :: b :: attrs).map condition) = _
    rw [conditionsOfAll_eq_flatMap, List.flatMap_map, List.map_eq_flatMap]
    simp only [h]

mutual

/-- **A query spelled out has the conditions of the query**, each once for every attribute that it
is about. -/
theorem conditions_spelledOut (e : Expression) :
    (e.spelledOut r).conditions =
      e.conditions.flatMap fun c => (r.attributesUnder c.1).map fun attr => (attr, c.2) := by
  cases e with
  | and es => exact conditionsOfAll_spelledOutAll es
  | or es => exact conditionsOfAll_spelledOutAll es
  | not e => exact conditions_spelledOut e
  | equals field value =>
    rw [spelledOut, conditions_overAttributes r fun _ => by rw [conditions], conditions,
      List.flatMap_singleton]
  | contains field value =>
    rw [spelledOut, conditions_overAttributes r fun _ => by rw [conditions], conditions,
      List.flatMap_singleton]

theorem conditionsOfAll_spelledOutAll (es : List Expression) :
    conditionsOfAll (spelledOutAll r es) =
      (conditionsOfAll es).flatMap fun c =>
        (r.attributesUnder c.1).map fun attr => (attr, c.2) := by
  cases es with
  | nil => rfl
  | cons e es =>
    rw [spelledOutAll, conditionsOfAll, conditionsOfAll, conditions_spelledOut e,
      conditionsOfAll_spelledOutAll es, List.flatMap_append]

end

end Expression

namespace Filter

variable (r : Registry)

/-! ## The filter of a query spelled out -/

/-- Without declarations a name is taken for an attribute's own. -/
theorem overAttributes_empty (name : String) (clause : String → Filter) :
    overAttributes .empty name clause = clause name := by
  have hnone : Registry.empty.attributesForName? name = none := Option.bind_fun_none _
  rw [overAttributes, hnone]

/-- A condition spelled out has the clauses of the condition. -/
theorem ofExpression_overAttributes {field : String} {condition : String → Expression}
    {clause : String → Filter} (h : ∀ attr, ofExpression .empty (condition attr) = clause attr) :
    ofExpression .empty (Expression.overAttributes r field condition) =
      overAttributes r field clause := by
  unfold Expression.overAttributes overAttributes
  rcases r.attributesForName? field with _ | _ | ⟨a, _ | ⟨b, attrs⟩⟩
  · exact h field
  · exact h field
  · exact h a
  · have hne : (a :: b :: attrs).map condition ≠ [] := by simp
    show ofExpression .empty (.or ((a :: b :: attrs).map condition)) = _
    rw [ofExpression_or hne, List.map_map]
    exact congrArg Filter.any (List.map_congr_left fun attr _ => h attr)

/-- **A query spelled out has the filter of the query**, with no declarations needed. -/
theorem ofExpression_spelledOut (e : Expression) :
    ofExpression .empty (e.spelledOut r) = ofExpression r e := by
  have parts {es : List Expression}
      (ih : ∀ e ∈ es, ofExpression .empty (e.spelledOut r) = ofExpression r e) :
      (es.map (Expression.spelledOut r)).map (ofExpression .empty) =
        es.map (ofExpression r) := by
    rw [List.map_map]
    exact List.map_congr_left ih
  induction e using ofExpression_induction (r := r) with
  | emptyAnd => rfl
  | emptyOr => rfl
  | and hne ih =>
    rw [Expression.spelledOut, Expression.spelledOutAll_eq_map,
      ofExpression_and (by simpa using hne), parts ih]
  | or hne ih =>
    rw [Expression.spelledOut, Expression.spelledOutAll_eq_map,
      ofExpression_or (by simpa using hne), parts ih]
  | not ih => rw [Expression.spelledOut, ofExpression, ih]
  | equals field value =>
    exact ofExpression_overAttributes r fun attr => by
      rw [ofExpression, overAttributes_empty]
  | contains field value =>
    exact ofExpression_overAttributes r fun attr => by
      rw [ofExpression, overAttributes_empty]

/-- **A field is shorthand for its attributes and nothing more.** The query spelled out says the
same without a registry, and has a condition on each attribute, whatever the attribute is called. -/
theorem compile_spelledOut (mode : Escaping) (e : Expression) :
    compile r mode (some e) = compile .empty mode (some (e.spelledOut r)) ∧
      (e.spelledOut r).conditions =
        e.conditions.flatMap fun c => (r.attributesUnder c.1).map fun attr => (attr, c.2) := by
  refine ⟨?_, Expression.conditions_spelledOut r e⟩
  rw [compile, compile, ofQuery, ofQuery, ofExpression_spelledOut]

/-- An attribute that has the name of another field is not that field. -/
example :
    let r := (Registry.empty.declare .phone ["mobile", "email"]).declare .email ["mail"]
    compile r .verbatim (some (.equals "phone" "1")) = "(|(mobile=1)(email=1))" := by
  decide

end Filter

end DirectoryLookup
