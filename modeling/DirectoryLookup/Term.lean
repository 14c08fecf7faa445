import DirectoryLookup.Expression.Basic
import DirectoryLookup.Text.Blank
import DirectoryLookup.Text.Quoted

/-!
# Query terms

A term is a condition in the short form of the command line: `field=value` asks for a value,
`field~value` for a text inside a value, and a `!` in front negates either. Blanks around a term
do not count. The name of a field is an ASCII letter followed by letters, digits, dots and
hyphens; the value is the rest of the term, which may hold anything but a line feed.

Several terms must all hold.
-/

namespace DirectoryLookup.Term

/-- What is wrong with a term. The term is kept as it was given. -/
inductive Error
  /-- It has no field, no operator, or a line feed in its value. -/
  | malformed (term : String)
  /-- Nothing follows the operator. -/
  | emptyValue (term : String)
  deriving DecidableEq, Repr

/-- The text that reports the error. -/
def Error.message : Error → String
  | malformed term =>
    "invalid term " ++ Text.quote term ++ ": expected field=value or field~value"
  | emptyValue term => "invalid term " ++ Text.quote term ++ ": empty value"

/-- The comparison a term makes. -/
inductive Operator
  | equals
  | contains
  deriving DecidableEq, Repr

/-- The operator that a character writes. -/
def Operator.ofChar? : Char → Option Operator
  | '=' => some equals
  | '~' => some contains
  | _ => none

/-- The characters of a field's name after the first. -/
def isNameChar (c : Char) : Bool :=
  c.isAlphanum || c == '.' || c == '-'

/-- A term taken apart. -/
structure Parts where
  negated : Bool
  field : List Char
  operator : Operator
  value : List Char
  deriving DecidableEq, Repr

/-- Takes apart a term without its `!`. -/
def bareParts? (negated : Bool) (s : List Char) : Option Parts :=
  match s with
  | [] => none
  | c :: s =>
    if c.isAlpha then
      match s.dropWhile isNameChar with
      | [] => none
      | o :: value => do
        let operator ← Operator.ofChar? o
        if value.contains '\n' then none
        else some ⟨negated, c :: s.takeWhile isNameChar, operator, value⟩
    else none

/-- Takes apart a term that has no blanks around it. -/
def parts? : List Char → Option Parts
  | '!' :: s => bareParts? true s
  | s => bareParts? false s

/-- The condition of a term. -/
def Parts.condition (p : Parts) : Expression :=
  match p.operator with
  | .equals => .equals (String.ofList p.field) (String.ofList p.value)
  | .contains => .contains (String.ofList p.field) (String.ofList p.value)

/-- The expression of a term. -/
def Parts.expression (p : Parts) : Expression :=
  if p.negated then .not p.condition else p.condition

/-- Reads a term. -/
def read (term : String) : Except Error Expression :=
  match parts? (Text.trim term.toList) with
  | none => .error (.malformed term)
  | some p => if p.value = [] then .error (.emptyValue term) else .ok p.expression

/-- What several expressions ask for together: nothing, the only one, or all of them. -/
def conjunction : List Expression → Option Expression
  | [] => none
  | [e] => some e
  | es => some (.and es)

/-- Reads several terms; the first that is wrong decides the error. -/
def readAll (terms : List String) : Except Error (Option Expression) :=
  conjunction <$> terms.mapM read

end DirectoryLookup.Term
