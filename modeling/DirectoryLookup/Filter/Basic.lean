import DirectoryLookup.Expression.Basic
import DirectoryLookup.Filter.Escape
import DirectoryLookup.Registry

/-!
# Directory filters

A filter is a query in the server's terms: its conditions are on attributes, not on fields. An
expression becomes a filter by replacing each field with the attributes it stands for, one clause
for each, and any of them will do. Nothing else changes: no part is simplified, moved or dropped.

The text of a filter puts operators before their operands and everything in parentheses:
`(&(sn=Smith)(|(mail=*x*)(rfc822Mailbox=*x*)))`.
-/

namespace DirectoryLookup

/-- A condition on entries. -/
inductive Filter
  | all (parts : List Filter)
  | any (parts : List Filter)
  | not (part : Filter)
  /-- The attribute has a value. -/
  | present (attr : String)
  /-- The attribute has exactly this value. -/
  | equal (attr value : String)
  /-- The attribute has a value with this text in it. -/
  | contains (attr value : String)
  deriving Repr, Inhabited

namespace Filter

/-- The filter that every entry passes. -/
def everything : Filter :=
  .present "objectClass"

/-! ## From fields to attributes -/

/-- The clauses for the attributes that a field stands for: a single one alone, several as
alternatives. A name for which the registry has no attributes is taken as an attribute's own. -/
def overAttributes (r : Registry) (field : String) (clause : String → Filter) : Filter :=
  match r.attributesForName? field with
  | none | some [] => clause field
  | some [attr] => clause attr
  | some attrs => .any (attrs.map clause)

mutual

/-- The filter for an expression. A group with no parts accepts every entry, be it a conjunction
or a disjunction. -/
def ofExpression (r : Registry) : Expression → Filter
  | .and [] | .or [] => everything
  | .and (e :: es) => .all (ofExpressions r (e :: es))
  | .or (e :: es) => .any (ofExpressions r (e :: es))
  | .not e => .not (ofExpression r e)
  | .equals field value => overAttributes r field fun a => .equal a value
  | .contains field value => overAttributes r field fun a => .contains a value

/-- The filters for several expressions, in their order. -/
def ofExpressions (r : Registry) : List Expression → List Filter
  | [] => []
  | e :: es => ofExpression r e :: ofExpressions r es

end

/-- The filter for a query; without an expression every entry will do. -/
def ofQuery (r : Registry) : Option Expression → Filter
  | none => everything
  | some e => ofExpression r e

/-! ## The text of a filter -/

/-- The text of a clause. -/
def clauseText (attr value : List Char) : List Char :=
  '(' :: attr ++ '=' :: value ++ [')']

mutual

/-- The text of a filter, with its values put in as `mode` says. -/
def render (mode : Escaping) : Filter → List Char
  | .all parts => '(' :: '&' :: renderAll mode parts ++ [')']
  | .any parts => '(' :: '|' :: renderAll mode parts ++ [')']
  | .not part => '(' :: '!' :: render mode part ++ [')']
  | .present a => clauseText a.toList ['*']
  | .equal a value => clauseText a.toList (mode.apply value).toList
  | .contains a value => clauseText a.toList ('*' :: (mode.apply value).toList ++ ['*'])

/-- The texts of several filters one after the other. -/
def renderAll (mode : Escaping) : List Filter → List Char
  | [] => []
  | f :: fs => render mode f ++ renderAll mode fs

end

/-- The text of the filter for a query. -/
def compile (r : Registry) (mode : Escaping) (query : Option Expression) : String :=
  String.ofList ((ofQuery r query).render mode)

/-! ## Reading the definitions back -/

theorem ofExpressions_eq_map (r : Registry) (es : List Expression) :
    ofExpressions r es = es.map (ofExpression r) := by
  induction es with
  | nil => simp [ofExpressions]
  | cons e es ih => simp [ofExpressions, ih]

theorem renderAll_eq_flatMap (mode : Escaping) (fs : List Filter) :
    renderAll mode fs = fs.flatMap (render mode) := by
  induction fs with
  | nil => simp [renderAll]
  | cons f fs ih => simp [renderAll, ih]

/-- The text of a filter is never empty: it starts with a parenthesis. -/
theorem head_render (mode : Escaping) (f : Filter) : (f.render mode).head? = some '(' := by
  cases f <;> simp [render, clauseText]

theorem compile_ne_empty (r : Registry) (mode : Escaping) (query : Option Expression) :
    compile r mode query ≠ "" := by
  intro h
  have hhead := head_render mode (ofQuery r query)
  rw [String.ofList_eq_empty_iff.1 h] at hhead
  exact absurd hhead (by simp)

end Filter

end DirectoryLookup
