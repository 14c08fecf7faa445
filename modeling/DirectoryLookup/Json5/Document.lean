import DirectoryLookup.Json5.Token
import DirectoryLookup.Settings.Raw

/-!
# JSON5 documents

A document is one value. Arrays and objects may have a comma after their last item or member, and
the keys of objects may be names. A number is an integer of 64 bits, or a hexadecimal one of 32, or
a double; a sign stands in front of a decimal number only.

Arrays and objects are kept on a stack while they are open.
-/

namespace DirectoryLookup.Json5

open Number
open Settings (Raw Table)

/-! ## Words -/

/-- The digits of an integer: no zero stands in front of others. -/
def isWhole (digits : List Char) : Bool :=
  !digits.isEmpty && digits.all Char.isDigit && (digits.head? != some '0' || digits.length == 1)

/-- The exponent of a number: none, or a letter `e`, a sign or none, and digits. -/
def isExponent (text : List Char) : Bool :=
  (Decimal.exponentOf? text).isSome

/-- The double that a text without a sign writes, if it is in range. -/
def fraction? (negative : Bool) (text : List Char) : Option Double :=
  let (whole, part, rest) := Decimal.pieces text
  if !isExponent rest ∨ !(isWhole whole ∨ (whole = [] ∧ part ≠ [])) then none
  else
    ((Decimal.ofText? negative text).map Decimal.toDouble).filter fun
      | .infinite _ => false
      | _ => true

/-- The number that a word writes. -/
def number? (word : List Char) : Option Raw :=
  let (negative, digits) := unsign word
  if digits = "Infinity".toList then some (.float (.infinite negative))
  else if digits = "NaN".toList then some (.float .nan)
  else if isWhole digits then ((intOf? word).filter isInt64).map .integer
  else
    match word with
    | '0' :: x :: hex =>
      if x = 'x' ∨ x = 'X' then
        ((natOfBase? 16 hex).filter (· < UInt32.size)).map fun n => .integer n
      else (fraction? negative digits).map .float
    | _ => (fraction? negative digits).map .float

/-- The value that a word stands for. -/
def value? (word : List Char) : Option Raw :=
  if word = "null".toList then some .null
  else if word = "true".toList then some (.bool true)
  else if word = "false".toList then some (.bool false)
  else number? word

/-- The characters of names: letters, which are any characters beyond ASCII too, digits, the
underscore and the dollar sign. No digit comes first. -/
def isNameChar (first : Bool) (c : Char) : Bool :=
  c.isAlpha || c == '_' || c == '$' || 0x80 ≤ c.toNat || (!first && c.isDigit)

/-- The name that a word writes, in which characters may be written as escapes. -/
def nameFrom? (first : Bool) : List Char → Option (List Char)
  | [] => if first then none else some []
  | '\\' :: 'u' :: a :: b :: c :: d :: rest =>
    match (natOfBase? 16 [a, b, c, d]).bind Text.charOf? with
    | some e => (nameFrom? false rest).map (e :: ·)
    | none => none
  | c :: rest => if isNameChar first c then (nameFrom? false rest).map (c :: ·) else none

/-! ## Values -/

/-- An array or object that is open while a value in it is read. -/
inductive Frame
  /-- The items before, the last one first. -/
  | array (items : List Raw)
  /-- The entries before, and the key of the value. -/
  | object (entries : Table) (key : String)

/-- What may come next. -/
inductive Place
  | value
  /-- An item after those read, the last one first, or the end of the array. -/
  | item (items : List Raw)
  /-- A key after the entries read, or the end of the object. -/
  | key (entries : Table)
  | colon (entries : Table) (key : String)
  | after (value : Raw)

/-- A reader between two tokens. -/
structure Reader where
  place : Place := .value
  /-- What is open, the innermost first. -/
  opened : List Frame := []

namespace Reader

/-- The first token of a value. -/
def startValue? (opened : List Frame) : Token → Option Reader
  | .openBracket => some ⟨.item [], opened⟩
  | .openBrace => some ⟨.key [], opened⟩
  | .text content => some ⟨.after (.text (String.ofList content)), opened⟩
  | .word written => (Json5.value? written).map fun v => ⟨.after v, opened⟩
  | _ => none

/-- A token after a value. -/
def afterValue? (value : Raw) (opened : List Frame) (token : Token) : Option Reader :=
  match opened, token with
  | .array items :: opened, .comma => some ⟨.item (value :: items), opened⟩
  | .array items :: opened, .closeBracket =>
    some ⟨.after (.list (value :: items).reverse), opened⟩
  | .object entries key :: opened, .comma => some ⟨.key (Entries.put entries key value), opened⟩
  | .object entries key :: opened, .closeBrace =>
    some ⟨.after (.table (Entries.put entries key value)), opened⟩
  | _, _ => none

/-- One token more. -/
def step (r : Reader) (token : Token) : Option Reader :=
  match r.place, token with
  | .value, token => startValue? r.opened token
  | .item items, .closeBracket => some ⟨.after (.list items.reverse), r.opened⟩
  | .item items, token => startValue? (.array items :: r.opened) token
  | .key entries, .closeBrace => some ⟨.after (.table entries), r.opened⟩
  | .key entries, .text key => some ⟨.colon entries (String.ofList key), r.opened⟩
  | .key entries, .word written =>
    (nameFrom? true written).map fun key => ⟨.colon entries (String.ofList key), r.opened⟩
  | .key _, _ => none
  | .colon entries key, .colon => some ⟨.value, .object entries key :: r.opened⟩
  | .colon _ _, _ => none
  | .after value, token => afterValue? value r.opened token

/-- The value read, if the text may end here. -/
def result? (r : Reader) : Option Raw :=
  match r.place, r.opened with
  | .after value, [] => some value
  | _, _ => none

end Reader

/-- The settings in a document. -/
def settings? (text : List Char) : Option Table := do
  let r ← (← tokens? text).foldlM Reader.step {}
  match ← r.result? with
  | .table t => some t
  | _ => none

end DirectoryLookup.Json5
