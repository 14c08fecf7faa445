/-!
# Query expressions

What a caller asks for: conditions on fields, joined by conjunction, disjunction and negation. A
field is given by name, and the name need not be that of a field of a person: any other stands
for the attribute of that name.
-/

namespace DirectoryLookup

/-- A query over the fields of people. -/
inductive Expression
  | and (parts : List Expression)
  | or (parts : List Expression)
  | not (part : Expression)
  /-- The field has exactly this value. -/
  | equals (field value : String)
  /-- The field has a value with this text in it. -/
  | contains (field value : String)
  deriving Repr, Inhabited

end DirectoryLookup
