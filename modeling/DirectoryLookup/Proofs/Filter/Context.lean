import DirectoryLookup.Proofs.Filter.Expansion

/-!
# The text of a part

An expression with a hole (`Context`) is a conjunction, a disjunction or a negation around another
one, with any parts in front of the hole and behind it. The innermost one is the hole itself.

**Theorem (`compile_fill`).** The filter of a filled context is written as the filter of the part by
itself, between two texts that the context settles. So a part is written in the same way wherever it
stands: nothing is left out of it, moved in it, or joined with what is around it.

The two texts are told from those of the parts beside the hole, each as it is by itself
(`Context.left`, `Context.right`). A group around a hole is never empty, so it is written with its
operator, also around an empty group, which has none.
-/

namespace DirectoryLookup

open DirectoryLookup.Filter (Escaping compile)

namespace Expression

/-- The two ways to join expressions. -/
inductive Connective
  | and
  | or

/-- Several expressions joined. -/
def Connective.group : Connective → List Expression → Expression
  | and => .and
  | or => .or

/-- An expression with a hole in the place of one part. -/
inductive Context
  | hole
  | group (op : Connective) (before : List Expression) (inner : Context) (after : List Expression)
  | not (inner : Context)

/-- The expression with a part in the hole. -/
def Context.fill : Context → Expression → Expression
  | hole, e => e
  | group op before inner after, e => op.group (before ++ inner.fill e :: after)
  | not inner, e => .not (inner.fill e)

/-! ## What is written around a part -/

section Text

variable (r : Registry) (mode : Escaping)

/-- What the filter of a group starts with, unless the group is empty. -/
def Connective.opening : Connective → String
  | and => "(&"
  | or => "(|"

/-- The texts of the filters of several expressions, one after the other. -/
def compileAll (es : List Expression) : String :=
  String.join (es.map fun e => compile r mode (some e))

/-- What is written in front of the part in the hole. -/
def Context.left : Context → String
  | hole => ""
  | group op before inner _ => op.opening ++ compileAll r mode before ++ inner.left
  | not inner => "(!" ++ inner.left

/-- What is written behind the part in the hole. -/
def Context.right : Context → String
  | hole => ""
  | group _ _ inner after => inner.right ++ compileAll r mode after ++ ")"
  | not inner => inner.right ++ ")"

end Text

end Expression

namespace Filter

open Expression (Connective Context compileAll)

variable (r : Registry) (mode : Escaping)

/-! ## One level -/

theorem compileAll_append_cons (es : List Expression) (e : Expression) (es' : List Expression) :
    compileAll r mode (es ++ e :: es') =
      compileAll r mode es ++ compile r mode (some e) ++ compileAll r mode es' := by
  rw [compileAll, List.map_append, List.map_cons, String.join_append, String.join_cons,
    String.append_assoc]
  rfl

theorem toList_compileAll (es : List Expression) :
    (compileAll r mode es).toList = renderAll mode (es.map (ofExpression r)) := by
  simp only [compileAll, compile, ofQuery, String.toList_join, renderAll_eq_flatMap,
    List.flatMap_map, String.toList_ofList]

/-- A group is written as its parts in a row, between its operator and a parenthesis. -/
theorem compile_group (op : Connective) {es : List Expression} (h : es ≠ []) :
    compile r mode (some (op.group es)) = op.opening ++ compileAll r mode es ++ ")" := by
  refine String.toList_inj.1 ?_
  rw [String.toList_append, String.toList_append, toList_compileAll, compile,
    String.toList_ofList, ofQuery]
  cases op with
  | and =>
    rw [Connective.group, ofExpression_and h, render]
    rfl
  | or =>
    rw [Connective.group, ofExpression_or h, render]
    rfl

theorem compile_not (e : Expression) :
    compile r mode (some (.not e)) = "(!" ++ compile r mode (some e) ++ ")" := by
  refine String.toList_inj.1 ?_
  simp [compile, ofQuery, ofExpression, render]

/-! ## All levels -/

/-- **A part is written in the same way wherever it stands.** -/
theorem compile_fill (C : Context) (e : Expression) :
    compile r mode (some (C.fill e)) =
      C.left r mode ++ compile r mode (some e) ++ C.right r mode := by
  induction C with
  | hole => simp [Context.fill, Context.left, Context.right]
  | group op before inner after ih =>
    have hne : before ++ inner.fill e :: after ≠ [] := by simp
    rw [Context.fill, compile_group r mode op hne, compileAll_append_cons, ih]
    simp only [Context.left, Context.right, String.append_assoc]
  | not inner ih =>
    rw [Context.fill, compile_not, ih]
    simp only [Context.left, Context.right, String.append_assoc]

/-- Around empty groups and a repeated part every operator stays. -/
example : compile .person .verbatim (some (.or [.and [.or []], .not (.not (.and [])), .or []])) =
    "(|(&(objectClass=*))(!(!(objectClass=*)))(objectClass=*))" := by
  decide

end Filter

end DirectoryLookup
