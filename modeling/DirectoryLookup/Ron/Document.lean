import DirectoryLookup.Ron.Token
import DirectoryLookup.Settings.Raw

/-!
# RON documents

A document is one value. Besides lists in brackets and tables in braces, whose keys are texts,
there are structures in parentheses, perhaps with a name in front: with named fields they are
tables, else lists, and a name alone or empty parentheses are null. An option is the value in it,
or null. Every list and table may have a comma at its end.

What is open is kept on a stack. In front of the value, extensions of the format may be asked for,
none of which changes a value.
-/

namespace DirectoryLookup.Ron

open Number
open Settings (Raw Table)

/-! ## Words -/

/-- A number without the underscores that group its digits; none comes first. -/
def ungroup (digits : List Char) : List Char :=
  if digits.head? = some '_' then digits else digits.filter (· != '_')

/-- The ends of integers that tell their size. -/
def integerEndings : List String :=
  ["i8", "i16", "i32", "i64", "u8", "u16", "u32", "u64"]

/-- The ends of fractions that tell their size. -/
def fractionEndings : List String :=
  ["f32", "f64"]

/-- A text without one of these endings, if it has one. -/
def withoutEnding (endings : List String) (text : List Char) : List Char :=
  match endings.find? (·.toList.isSuffixOf text) with
  | some ending => text.take (text.length - ending.length)
  | none => text

/-- The number that an integer without a sign writes, in base ten or with another base in front. -/
def natural? (text : List Char) : Option Nat :=
  match withoutEnding integerEndings text with
  | '0' :: 'x' :: digits => natOfBase? 16 (ungroup digits)
  | '0' :: 'b' :: digits => natOfBase? 2 (ungroup digits)
  | '0' :: 'o' :: digits => natOfBase? 8 (ungroup digits)
  | digits => natOf? (ungroup digits)

/-- The number that a word writes: an integer of 64 bits, with a sign or without, or a double. -/
def number? (word : List Char) : Option Raw :=
  let (negative, digits) := unsign word
  match natural? digits with
  | some n =>
    let value : Int := if negative then -n else n
    if isInt64 value ∨ (!negative ∧ n ≤ Settings.numberMax) then some (.integer value) else none
  | none =>
    if digits = "inf".toList then some (.float (.infinite negative))
    else if digits = "NaN".toList then some (.float .nan)
    else
      let written := ungroup (withoutEnding fractionEndings digits)
      ((Decimal.ofText? negative written).map Decimal.toDouble).map .float

/-- A name: letters, which are any characters beyond ASCII too, digits and underscores. No digit
comes first. -/
def isName (word : List Char) : Bool :=
  word.all (fun c => c.isAlphanum || c == '_' || 0x80 ≤ c.toNat) && !word.head?.any Char.isDigit

/-- The value that a word stands for if nothing in parentheses belongs to it. -/
def value? (word : List Char) : Option Raw :=
  if word = "true".toList then some (.bool true)
  else if word = "false".toList then some (.bool false)
  else if word = "None".toList then some .null
  else if word = "Some".toList then none
  else
    match number? word with
    | some n => some n
    | none => if isName word then some .null else none

/-! ## Values -/

/-- What is open while a value in it is read. -/
inductive Frame
  /-- A list, with the items before, the last one first. -/
  | list (items : List Raw)
  /-- A structure without names, with the items before, the last one first. -/
  | tuple (items : List Raw)
  /-- A table whose next key is read, with the entries before. -/
  | key (entries : Table)
  /-- A table, with the entries before and the key of the value. -/
  | table (entries : Table) (key : String)
  /-- A structure with names, in the same way. -/
  | fields (entries : Table) (key : String)
  /-- An option. -/
  | option

/-- What may come next. -/
inductive Place
  | value
  /-- After a word that may have parentheses. -/
  | word (written : List Char)
  /-- After an opening parenthesis. -/
  | paren
  /-- After an opening parenthesis and a word, which may name a field. -/
  | parenWord (written : List Char)
  /-- A value after the items read, the last one first, or the end. -/
  | item (items : List Raw)
  | tupleItem (items : List Raw)
  /-- A key after the entries read, or the end. -/
  | entry (entries : Table)
  | field (entries : Table)
  /-- The colon after the name of a field. -/
  | colon (entries : Table) (key : String)
  /-- The end of an option after its value. -/
  | optionEnd (value : Raw)
  | after (value : Raw)

/-- A reader between two tokens. -/
structure Reader where
  place : Place := .value
  /-- What is open, the innermost first. -/
  opened : List Frame := []

namespace Reader

/-- The first token of a value. -/
def startValue? (opened : List Frame) : Token → Option Reader
  | .openBracket => some ⟨.item [], opened⟩
  | .openBrace => some ⟨.entry [], opened⟩
  | .openParen => some ⟨.paren, opened⟩
  | .text content => some ⟨.after (.text (String.ofList content)), opened⟩
  | .word written => some ⟨.word written, opened⟩
  | _ => none

/-- A token after a value. -/
def afterValue? (value : Raw) (opened : List Frame) (token : Token) : Option Reader :=
  match opened, token with
  | .list items :: opened, .comma => some ⟨.item (value :: items), opened⟩
  | .list items :: opened, .closeBracket =>
    some ⟨.after (.list (value :: items).reverse), opened⟩
  | .tuple items :: opened, .comma => some ⟨.tupleItem (value :: items), opened⟩
  | .tuple items :: opened, .closeParen => some ⟨.after (.list (value :: items).reverse), opened⟩
  | .key entries :: opened, .colon =>
    match value with
    | .text key => some ⟨.value, .table entries key :: opened⟩
    | _ => none
  | .table entries key :: opened, .comma => some ⟨.entry (Entries.put entries key value), opened⟩
  | .table entries key :: opened, .closeBrace =>
    some ⟨.after (.table (Entries.put entries key value)), opened⟩
  | .fields entries key :: opened, .comma => some ⟨.field (Entries.put entries key value), opened⟩
  | .fields entries key :: opened, .closeParen =>
    some ⟨.after (.table (Entries.put entries key value)), opened⟩
  | .option :: opened, .comma => some ⟨.optionEnd value, opened⟩
  | .option :: opened, .closeParen => some ⟨.after value, opened⟩
  | _, _ => none

/-- A token after a word that is no field. -/
def afterWord? (written : List Char) (opened : List Frame) (token : Token) : Option Reader :=
  match token with
  | .openParen =>
    if written = "Some".toList then some ⟨.value, .option :: opened⟩
    else if isName written then some ⟨.paren, opened⟩
    else none
  | token => (Ron.value? written).bind fun value => afterValue? value opened token

/-- One token more. -/
def step (r : Reader) (token : Token) : Option Reader :=
  match r.place, token with
  | .value, token => startValue? r.opened token
  | .word written, token => afterWord? written r.opened token
  | .paren, .closeParen => some ⟨.after .null, r.opened⟩
  | .paren, .word written => some ⟨.parenWord written, r.opened⟩
  | .paren, token => startValue? (.tuple [] :: r.opened) token
  | .parenWord written, .colon =>
    if isName written then some ⟨.value, .fields [] (String.ofList written) :: r.opened⟩ else none
  | .parenWord written, token => afterWord? written (.tuple [] :: r.opened) token
  | .item items, .closeBracket => some ⟨.after (.list items.reverse), r.opened⟩
  | .item items, token => startValue? (.list items :: r.opened) token
  | .tupleItem items, .closeParen => some ⟨.after (.list items.reverse), r.opened⟩
  | .tupleItem items, token => startValue? (.tuple items :: r.opened) token
  | .entry entries, .closeBrace => some ⟨.after (.table entries), r.opened⟩
  | .entry entries, token => startValue? (.key entries :: r.opened) token
  | .field entries, .closeParen => some ⟨.after (.table entries), r.opened⟩
  | .field entries, .word written =>
    if isName written then some ⟨.colon entries (String.ofList written), r.opened⟩ else none
  | .field _, _ => none
  | .colon entries key, .colon => some ⟨.value, .fields entries key :: r.opened⟩
  | .colon _ _, _ => none
  | .optionEnd value, .closeParen => some ⟨.after value, r.opened⟩
  | .optionEnd _, _ => none
  | .after value, token => afterValue? value r.opened token

/-- The value read, if the text may end here. -/
def result? (r : Reader) : Option Raw :=
  match r.place, r.opened with
  | .after value, [] => some value
  | .word written, [] => Ron.value? written
  | _, _ => none

end Reader

/-! ## Documents -/

/-- The extensions that can be asked for. -/
def extensions : List String :=
  ["unwrap_newtypes", "implicit_some", "unwrap_variant_newtypes", "explicit_struct_names"]

/-- What follows the names of extensions, with commas between them or behind them. -/
def dropExtensions? : List Token → Option (List Token)
  | .closeParen :: .closeBracket :: rest => some rest
  | .word name :: .comma :: rest =>
    if String.ofList name ∈ extensions then dropExtensions? rest else none
  | .word name :: .closeParen :: .closeBracket :: rest =>
    if String.ofList name ∈ extensions then some rest else none
  | _ => none

/-- The tokens of the value. -/
def body? : List Token → Option (List Token)
  | .sign :: .bang :: .openBracket :: .word name :: .openParen :: rest =>
    if name ≠ "enable".toList then none
    else
      match dropExtensions? rest with
      | some body => if body.length ≤ rest.length then body? body else none
      | none => none
  | tokens => some tokens
termination_by tokens => tokens.length

/-- The settings in a document. -/
def settings? (text : List Char) : Option Table := do
  let r ← (← body? (← tokens? text)).foldlM Reader.step {}
  match ← r.result? with
  | .table t => some t
  | _ => none

end DirectoryLookup.Ron
