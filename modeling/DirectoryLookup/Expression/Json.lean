import DirectoryLookup.Expression.Basic
import DirectoryLookup.Failure
import DirectoryLookup.Json.Reader

/-!
# Expressions as JSON

An expression is an object with one member, whose key says what it is:

- `and` and `or` hold an array of expressions, `not` holds an expression;
- `equals` and `contains` hold a field and a value, either as an object with the members `field`
  and `value` in any order, or as an array of these two strings.

Other members beside `field` and `value` are passed over. Anything else is refused, and so is an
expression nested too deeply.
-/

namespace DirectoryLookup.Expression

open Json (Node)

/-! ## Writing -/

/-- An object with one member. -/
def tagged (tag : String) (body : Node) : Node :=
  .object [(tag.toList, body)]

/-- The object of a field and a value. -/
def conditionNode (field value : String) : Node :=
  .object [("field".toList, Node.ofText field), ("value".toList, Node.ofText value)]

mutual

/-- The JSON tree of an expression. -/
def toNode : Expression → Node
  | and parts => tagged "and" (.array (toNodes parts))
  | or parts => tagged "or" (.array (toNodes parts))
  | not part => tagged "not" (toNode part)
  | equals field value => tagged "equals" (conditionNode field value)
  | contains field value => tagged "contains" (conditionNode field value)

/-- The trees of several expressions. -/
def toNodes : List Expression → List Node
  | [] => []
  | e :: es => toNode e :: toNodes es

end

/-- The JSON text of an expression, without blanks. -/
def toJson (e : Expression) : String :=
  String.ofList e.toNode.compact

/-! ## Reading -/

/-- Fills a place that must still be empty. -/
def fillOnce (place : Option String) (node : Node) : Option (Option String) :=
  match place, node.text? with
  | none, some text => some (some text)
  | _, _ => none

/-- Takes one member of a condition: the field and the value each once, others never. -/
def takeMember (found : Option String × Option String) (member : List Char × Node) :
    Option (Option String × Option String) := do
  let key ← Json.decode member.1
  if key = "field".toList then return (← fillOnce found.1 member.2, found.2)
  else if key = "value".toList then return (found.1, ← fillOnce found.2 member.2)
  else return found

/-- The field and the value of a condition, with `levels` left for arrays and objects. -/
def condition? (levels : Nat) (node : Node) : Option (String × String) :=
  match levels, node with
  | _ + 1, .array [field, value] => do return (← field.text?, ← value.text?)
  | _ + 1, .object members => do
    match ← members.foldlM takeMember (none, none) with
    | (some field, some value) => some (field, value)
    | _ => none
  | _, _ => none

mutual

/-- The expression that a JSON tree writes, with `levels` left for arrays and objects. -/
def ofNode? (levels : Nat) (node : Node) : Option Expression :=
  match levels, node with
  | levels + 1, .object [(key, body)] =>
    match Json.decode key with
    | none => none
    | some key =>
      if key = "and".toList then
        match levels, body with
        | levels + 1, .array items => (ofNodes? levels items).map .and
        | _, _ => none
      else if key = "or".toList then
        match levels, body with
        | levels + 1, .array items => (ofNodes? levels items).map .or
        | _, _ => none
      else if key = "not".toList then (ofNode? levels body).map .not
      else if key = "equals".toList then
        (condition? levels body).map fun c => .equals c.1 c.2
      else if key = "contains".toList then
        (condition? levels body).map fun c => .contains c.1 c.2
      else none
  | _, _ => none
termination_by structural node

/-- The expressions that several trees write, if each writes one. -/
def ofNodes? (levels : Nat) (nodes : List Node) : Option (List Expression) :=
  match nodes with
  | [] => some []
  | n :: ns =>
    match ofNode? levels n with
    | none => none
    | some e => (ofNodes? levels ns).map (e :: ·)
termination_by structural nodes

end

/-- The deepest nesting of arrays and objects that is read. What is passed over does not count. -/
def nestingLimit : Nat :=
  127

/-- The expression that a JSON text writes. -/
def ofJson (json : String) : Except Failure Expression :=
  match (Node.read? json.toList).bind (ofNode? nestingLimit) with
  | some e => .ok e
  | none => .error .unsupportedFilter

end DirectoryLookup.Expression
