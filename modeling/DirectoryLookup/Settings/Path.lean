import DirectoryLookup.Settings.Raw
import DirectoryLookup.Text.Pieces

/-!
# Paths of settings

A path leads to a setting: by the key of an entry in a table, or by a position in a list. It is
written as keys with dots between them, each followed by positions in brackets: `directory.host`,
`directory[0]`. A position below zero counts from the end of the list.

A value can be laid over the settings at the end of a path. What stands in the way gives way, and
what is missing on the way is made.
-/

namespace DirectoryLookup.Settings

open Number

/-- One step on the way to a setting. -/
inductive Step
  | key (name : String)
  /-- A position in a list; one below zero counts from the end. -/
  | index (position : Int)
  deriving DecidableEq, Repr

/-! ## Reading paths -/

/-- The characters of a key in a path. -/
def isKeyChar (c : Char) : Bool :=
  c.isAlphanum || c == '_' || c == '-'

/-- The characters that may stand around a position. -/
def isSpacing (c : Char) : Bool :=
  c == ' ' || c == '\t'

/-- A text without the spacing around it. -/
def withoutSpacing (text : List Char) : List Char :=
  ((text.dropWhile isSpacing).reverse.dropWhile isSpacing).reverse

/-- The position that a text writes: an integer of 64 bits, without a plus in front. -/
def positionOf? (text : List Char) : Option Int :=
  let s := withoutSpacing text
  if s.head? = some '+' then none else (intOf? s).filter isInt64

/-- The step that a bracket and a position write. -/
def indexOf? : List Char → Option Step
  | '[' :: text => (positionOf? text).map .index
  | _ => none

/-- The steps that a key with positions after it writes, each with its closing bracket. -/
def stepsOf? (text : List Char) : Option (List Step) :=
  let key := text.takeWhile isKeyChar
  let positions := Text.pieces (· == ']') (text.dropWhile isKeyChar)
  if key = [] ∨ positions.getLast? ≠ some [] then none
  else (positions.dropLast.mapM indexOf?).map (.key (String.ofList key) :: ·)

/-- The path that a text writes, if it is one. -/
def pathOf? (text : List Char) : Option (List Step) :=
  ((Text.pieces (· == '.') text).mapM stepsOf?).map List.flatten

/-! ## Laying values over the settings -/

/-- The items of a list; none of what is no list, or not there at all. -/
def itemsOf : Option Raw → List Raw
  | some (.list items) => items
  | _ => []

/-- A list that has an item at a position, and where that item stands, counted from the start.
Items that were missing are null; those for a position that counts from the end come in front. -/
def reach (items : List Raw) : Int → List Raw × Nat
  | .ofNat n => (items ++ List.replicate (n + 1 - items.length) .null, n)
  | .negSucc n =>
    (List.replicate (n + 1 - items.length) .null ++ items, items.length - (n + 1))

/-- The value that results when a value is laid over what was there, at the end of a path. -/
def layAt (lower : Option Raw) : List Step → Raw → Raw
  | [], value => value.over lower
  | .key name :: path, value =>
    let entries := entriesOf lower
    .table (Entries.put entries name (layAt (Entries.get? entries name) path value))
  | .index position :: path, value =>
    let (items, n) := reach (itemsOf lower) position
    .list (items.set n (layAt items[n]? path value))

end DirectoryLookup.Settings
