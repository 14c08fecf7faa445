import DirectoryLookup.Json.Node

/-!
# Reading JSON

The reader takes a text one character at a time. Its state says what may come next, and keeps a
stack of the arrays and objects that are open, each with what it holds so far. There is no limit
to nesting. Strings are checked for well-formed escapes and kept as written.

A text is read when every character is accepted and the last leaves one value complete with
nothing open.
-/

namespace DirectoryLookup.Json

/-- The characters that may stand between tokens. -/
def isSpace (c : Char) : Bool :=
  c == ' ' || c == '\t' || c == '\n' || c == '\r'

/-! ## Inside a string -/

/-- Where the reader stands in the characters of a string. -/
inductive Escape
  /-- Outside any escape. -/
  | none
  /-- After a backslash. -/
  | begun
  /-- Before the last `owed + 1` hexadecimal digits of an escape. -/
  | hex (owed : Nat)
  deriving DecidableEq, Repr

/-- One character of a string other than the quote that ends it. -/
def Escape.step : Escape → Char → Option Escape
  | none, c => if c = '\\' then some begun else if c.toNat < 0x20 then Option.none else some none
  | begun, c =>
    if c = 'u' then some (hex 3)
    else if (shortEscape? c).isSome then some none
    else Option.none
  | hex owed, c =>
    if (Number.hexValue? c).isNone then Option.none
    else match owed with
      | 0 => some none
      | n + 1 => some (hex n)

/-! ## Inside a number -/

/-- How far a number has been read. -/
inductive Digits
  | minus
  | zero
  | whole
  | point
  | fraction
  | exponent
  | exponentSign
  | exponentDigits
  deriving DecidableEq, Repr

/-- Whether a number may end here. -/
def Digits.isComplete : Digits → Bool
  | zero | whole | fraction | exponentDigits => true
  | _ => false

/-- One more character of a number. -/
def Digits.step (d : Digits) (c : Char) : Option Digits :=
  match d with
  | minus => if c = '0' then some zero else if c.isDigit then some whole else none
  | zero => if c = '.' then some point else if c = 'e' ∨ c = 'E' then some exponent else none
  | whole =>
    if c.isDigit then some whole
    else if c = '.' then some point
    else if c = 'e' ∨ c = 'E' then some exponent
    else none
  | point => if c.isDigit then some fraction else none
  | fraction =>
    if c.isDigit then some fraction else if c = 'e' ∨ c = 'E' then some exponent else none
  | exponent =>
    if c.isDigit then some exponentDigits
    else if c = '+' ∨ c = '-' then some exponentSign
    else none
  | exponentSign => if c.isDigit then some exponentDigits else none
  | exponentDigits => if c.isDigit then some exponentDigits else none

/-- The first character of a number. -/
def Digits.start? (c : Char) : Option Digits :=
  if c = '-' then some minus
  else if c = '0' then some zero
  else if c.isDigit then some whole
  else none

/-! ## The whole text -/

/-- Members of an object read so far, the last one first. -/
abbrev Members := List (List Char × Node)

/-- An array or object that is open, with what it holds so far, the last one first. -/
inductive Frame
  | array (items : List Node)
  /-- An object, and the key whose value comes next. -/
  | object (members : Members) (key : List Char)

/-- What may come next. Texts and numbers being read are held with the last character first. -/
inductive Place
  /-- A value. -/
  | value
  /-- The first item of an array, or its end. -/
  | firstItem
  /-- The first key of an object, or its end. -/
  | firstKey
  /-- A key, after the members before it. -/
  | key (members : Members)
  | keyText (members : Members) (escape : Escape) (raw : List Char)
  /-- The colon after a key. -/
  | colon (members : Members) (key : List Char)
  | text (escape : Escape) (raw : List Char)
  | number (digits : Digits) (read : List Char)
  /-- The rest of a literal, which stands for a node. -/
  | word (rest : List Char) (node : Node)
  /-- What follows a complete value. -/
  | done (node : Node)

/-- A reader between two characters. -/
structure Reader where
  place : Place
  /-- The innermost first. -/
  opened : List Frame

namespace Reader

/-- Before the first character. -/
def start : Reader :=
  ⟨.value, []⟩

/-- The first character of a value. -/
def startValue? (opened : List Frame) (c : Char) : Option Reader :=
  if c = '"' then some ⟨.text .none [], opened⟩
  else if c = '[' then some ⟨.firstItem, .array [] :: opened⟩
  else if c = '{' then some ⟨.firstKey, opened⟩
  else if c = 'n' then some ⟨.word ['u', 'l', 'l'] .null, opened⟩
  else if c = 't' then some ⟨.word ['r', 'u', 'e'] (.bool true), opened⟩
  else if c = 'f' then some ⟨.word ['a', 'l', 's', 'e'] (.bool false), opened⟩
  else (Digits.start? c).map fun d => ⟨.number d [c], opened⟩

/-- A character after a complete value. -/
def afterValue? (node : Node) (opened : List Frame) (c : Char) : Option Reader :=
  if isSpace c then some ⟨.done node, opened⟩
  else match opened with
    | [] => none
    | .array items :: opened =>
      if c = ',' then some ⟨.value, .array (node :: items) :: opened⟩
      else if c = ']' then some ⟨.done (.array (node :: items).reverse), opened⟩
      else none
    | .object members key :: opened =>
      if c = ',' then some ⟨.key ((key, node) :: members), opened⟩
      else if c = '}' then some ⟨.done (.object ((key, node) :: members).reverse), opened⟩
      else none

/-- One character more. -/
def step (r : Reader) (c : Char) : Option Reader :=
  match r.place with
  | .value => if isSpace c then some r else startValue? r.opened c
  | .firstItem =>
    if isSpace c then some r
    else if c = ']' then some ⟨.done (.array []), r.opened.tail⟩
    else startValue? r.opened c
  | .firstKey =>
    if isSpace c then some r
    else if c = '}' then some ⟨.done (.object []), r.opened⟩
    else if c = '"' then some ⟨.keyText [] .none [], r.opened⟩
    else none
  | .key members =>
    if isSpace c then some r
    else if c = '"' then some ⟨.keyText members .none [], r.opened⟩
    else none
  | .keyText members escape raw =>
    if escape = .none ∧ c = '"' then some ⟨.colon members raw.reverse, r.opened⟩
    else (escape.step c).map fun e => ⟨.keyText members e (c :: raw), r.opened⟩
  | .colon members key =>
    if isSpace c then some r
    else if c = ':' then some ⟨.value, .object members key :: r.opened⟩
    else none
  | .text escape raw =>
    if escape = .none ∧ c = '"' then some ⟨.done (.string raw.reverse), r.opened⟩
    else (escape.step c).map fun e => ⟨.text e (c :: raw), r.opened⟩
  | .number digits read =>
    match digits.step c with
    | some d => some ⟨.number d (c :: read), r.opened⟩
    | none => if digits.isComplete then afterValue? (.number read.reverse) r.opened c else none
  | .word rest node =>
    match rest with
    | [d] => if c = d then some ⟨.done node, r.opened⟩ else none
    | d :: rest => if c = d then some ⟨.word rest node, r.opened⟩ else none
    | [] => none
  | .done node => afterValue? node r.opened c

/-- The characters of a text, one after the other. -/
def run (r : Reader) (text : List Char) : Option Reader :=
  text.foldlM step r

/-- The value read, if the text may end here. -/
def result? (r : Reader) : Option Node :=
  match r.place, r.opened with
  | .done node, [] => some node
  | .number digits read, [] => if digits.isComplete then some (.number read.reverse) else none
  | _, _ => none

theorem run_append (r : Reader) (s t : List Char) :
    r.run (s ++ t) = (r.run s).bind (·.run t) := by
  simp [run, List.foldlM_append]

end Reader

/-- The tree of a JSON text. -/
def Node.read? (text : List Char) : Option Node :=
  (Reader.start.run text).bind Reader.result?

end DirectoryLookup.Json
