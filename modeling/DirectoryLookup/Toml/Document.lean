import DirectoryLookup.Toml.Scalar
import DirectoryLookup.Toml.Token

/-!
# TOML documents

A document is a sequence of lines that open tables and set keys. Reading it builds a tree, in
which each table remembers where it comes from, since that decides whether it may be opened or
added to later on:

- a table opened by a header of its own is opened once, and gets its keys below that header;
- a table that a longer header implies may still be opened, once, unless dotted keys add to it;
- a table that dotted keys made or added to gets more keys in the same way, and is never opened.

Values may hold values: arrays and inline tables are kept on a stack while they are open. Between
their tokens, as between lines, there may be line breaks.
-/

namespace DirectoryLookup.Toml

open Settings (Raw Table)

/-! ## Tables being built -/

/-- Where a table comes from. -/
inductive Origin
  /-- It has a header. -/
  | header
  /-- A header for a table in it implies it. -/
  | implied
  /-- Dotted keys made it, or added to it when it was implied. -/
  | dotted
  deriving DecidableEq, Repr

/-- What a key stands for in a document that is being read. -/
inductive Tree
  /-- A finished value; nothing can be added to it. -/
  | leaf (value : Raw)
  | table (origin : Origin) (entries : List (String × Tree))
  /-- An array of tables that each have a header, the last one first. -/
  | tables (elements : List (List (String × Tree)))
  deriving Inhabited

/-- The entries of a table being built. -/
abbrev Branch := Entries Tree

mutual

/-- The value that a tree makes. -/
def Tree.toRaw (t : Tree) : Raw :=
  match t with
  | .leaf value => value
  | .table _ entries => .table (branchToTable entries)
  | .tables elements => .list (branchesToList elements).reverse
termination_by structural t

/-- The entries of a finished table. -/
def branchToTable (entries : List (String × Tree)) : List (String × Raw) :=
  match entries with
  | [] => []
  | (key, t) :: rest => (key, t.toRaw) :: branchToTable rest
termination_by structural entries

/-- The tables of an array, in the same order. -/
def branchesToList (elements : List (List (String × Tree))) : List Raw :=
  match elements with
  | [] => []
  | entries :: rest => .table (branchToTable entries) :: branchesToList rest
termination_by structural elements

end

/-- Sets a key, given with the keys of the tables on the way to it. Tables that are missing are
made, and none that has a header may be on the way. An array on the way stands for its last table,
which has a header, and so the key may not be set right in it. -/
def assign (b : Branch) : List String → Raw → Option Branch
  | [], _ => none
  | [key], value =>
    match Entries.get? b key with
    | none => some (Entries.put b key (.leaf value))
    | some _ => none
  | key :: next :: path, value =>
    match Entries.get? b key with
    | none => (assign [] (next :: path) value).map fun sub => Entries.put b key (.table .dotted sub)
    | some (.table origin sub) =>
      if origin = .header then none
      else (assign sub (next :: path) value).map fun sub =>
        Entries.put b key (.table .dotted sub)
    | some (.tables (last :: earlier)) =>
      if path = [] then none
      else (assign last (next :: path) value).map fun last =>
        Entries.put b key (.tables (last :: earlier))
    | some _ => none

/-- Changes the table at the end of a path. Tables that are missing are made, as implied; of an
array of tables the last one is meant. -/
def within (b : Branch) (path : List String) (change : Branch → Option Branch) : Option Branch :=
  match path with
  | [] => change b
  | key :: path =>
    match Entries.get? b key with
    | none => (within [] path change).map fun sub => Entries.put b key (.table .implied sub)
    | some (.table origin sub) =>
      (within sub path change).map fun sub => Entries.put b key (.table origin sub)
    | some (.tables (last :: earlier)) =>
      (within last path change).map fun last => Entries.put b key (.tables (last :: earlier))
    | some _ => none

/-- Opens the table with this key, as its header does. -/
def openTable (key : String) (b : Branch) : Option Branch :=
  match Entries.get? b key with
  | none => some (Entries.put b key (.table .header []))
  | some (.table .implied sub) => some (Entries.put b key (.table .header sub))
  | some _ => none

/-- Opens one more table in the array with this key. -/
def openElement (key : String) (b : Branch) : Option Branch :=
  match Entries.get? b key with
  | none => some (Entries.put b key (.tables [[]]))
  | some (.tables elements) => some (Entries.put b key (.tables ([] :: elements)))
  | some _ => none

/-! ## Lines and values -/

/-- An array or inline table that is open. -/
inductive Frame
  /-- The items so far, the last one first. -/
  | array (items : List Raw)
  /-- The entries so far, and the key whose value comes next. -/
  | inline (entries : Branch) (keys : List String)

/-- Where a key stands. -/
inductive Home
  /-- At the start of a line. -/
  | line
  /-- In an inline table with these entries before it. -/
  | inline (entries : Branch)

/-- What may come next. Keys of a path are held with the last one first. -/
inductive Place
  | lineStart
  | lineEnd
  /-- After the first bracket of a header. -/
  | headerStart
  /-- A key of a header. -/
  | headerKey (element : Bool) (keys : List String)
  | afterHeaderKey (element : Bool) (keys : List String)
  /-- The second closing bracket of a header. -/
  | headerEnd (keys : List String)
  /-- A key, after a dot. -/
  | key (home : Home) (keys : List String)
  | afterKey (home : Home) (keys : List String)
  /-- The equals sign of an inline table, on a line below its key. -/
  | equalsBelow (entries : Branch) (keys : List String)
  | value
  /-- An item of an array, or its end. -/
  | itemOrEnd
  | afterItem
  /-- A key of an inline table, or its end. -/
  | pairOrEnd (entries : Branch)
  | afterPair (entries : Branch)
  /-- Inside a value without quotes. -/
  | scalar (read : List Char)
  /-- After a date and a space: a time may follow. -/
  | afterDate (read : List Char)

/-- A reader between two tokens. -/
structure Reader where
  place : Place
  /-- The innermost first. -/
  opened : List Frame
  root : Branch
  /-- The path of the table that the last header opened. -/
  current : List String
  /-- The keys of the line whose value is being read. -/
  pending : List String

namespace Reader

/-- Before the first token. -/
def start : Reader :=
  { place := .lineStart, opened := [], root := [], current := [], pending := [] }

/-- The deepest nesting of arrays and inline tables that is read. -/
def depthLimit : Nat :=
  80

/-- The greatest number of keys in a path that is read. -/
def pathLimit : Nat :=
  80

/-- The reader at a new place. -/
def goTo (r : Reader) (place : Place) : Option Reader :=
  some { r with place := place }

/-- The characters of a key without quotes. -/
def isKeyChar (c : Char) : Bool :=
  c.isAlphanum || c == '_' || c == '-'

/-- The key that a token makes. -/
def keyOf? : Token → Option String
  | .word read => if read.all isKeyChar then some (String.ofList read) else none
  | .text false content => some (String.ofList content)
  | _ => none

/-- The reader after one more key of a path, if a token makes one. -/
def takeKey (r : Reader) (t : Token) (keys : List String) (place : List String → Place) :
    Option Reader :=
  if pathLimit ≤ keys.length then none else (keyOf? t).bind fun key => r.goTo (place (key :: keys))

/-- The reader after a header, given its keys with the last one first. -/
def openSection (r : Reader) (element : Bool) (keys : List String) : Option Reader :=
  match keys with
  | [] => none
  | last :: outer =>
    let change := if element then openElement last else openTable last
    (within r.root outer.reverse change).map fun root =>
      { r with place := .lineEnd, root := root, current := keys.reverse }

/-- The reader after the equals sign that follows keys, the last of which comes first. -/
def takeKeys (r : Reader) (home : Home) (keys : List String) : Reader :=
  match home with
  | .line => { r with place := .value, pending := keys.reverse }
  | .inline entries =>
    { r with place := .value, opened := .inline entries keys.reverse :: r.opened }

/-- The reader after a complete value. -/
def complete (r : Reader) (value : Raw) : Option Reader :=
  match r.opened with
  | [] =>
    (within r.root r.current (assign · r.pending value)).map fun root =>
      { r with place := .lineEnd, root := root }
  | .array items :: opened =>
    some { r with place := .afterItem, opened := .array (value :: items) :: opened }
  | .inline entries keys :: opened =>
    (assign entries keys value).map fun entries =>
      { r with place := .afterPair entries, opened := opened }

/-- The end of the innermost array. -/
def closeArray (r : Reader) : Option Reader :=
  match r.opened with
  | .array items :: opened => { r with opened := opened }.complete (.list items.reverse)
  | _ => none

/-- The end of an inline table. -/
def closeInline (r : Reader) (entries : Branch) : Option Reader :=
  r.complete (.table (branchToTable entries))

/-- A token after a complete value or header. -/
def endStep (r : Reader) (t : Token) : Option Reader :=
  match r.place, t with
  | _, .blank _ => some r
  | .lineEnd, .newline => r.goTo .lineStart
  | .afterItem, .newline => some r
  | .afterItem, .comma => r.goTo .itemOrEnd
  | .afterItem, .closeBracket => r.closeArray
  | .afterPair _, .newline => some r
  | .afterPair entries, .comma => r.goTo (.pairOrEnd entries)
  | .afterPair entries, .closeBrace => r.closeInline entries
  | _, _ => none

/-- A token that starts a value. -/
def valueStep (r : Reader) (t : Token) : Option Reader :=
  match t with
  | .blank _ => some r
  | .openBracket =>
    if depthLimit ≤ r.opened.length then none
    else some { r with place := .itemOrEnd, opened := .array [] :: r.opened }
  | .openBrace => if depthLimit ≤ r.opened.length then none else r.goTo (.pairOrEnd [])
  | .text _ content => r.complete (.text (String.ofList content))
  | .word read => r.goTo (.scalar read)
  | _ => none

/-- A token after a value without quotes, which is over. -/
def scalarEnd (r : Reader) (read : List Char) (t : Token) : Option Reader := do
  (← r.complete (← scalar? read)).endStep t

/-- One token more. -/
def step (r : Reader) (t : Token) : Option Reader :=
  match r.place with
  | .lineStart =>
    match t with
    | .blank _ | .newline => some r
    | .openBracket => r.goTo .headerStart
    | t => r.takeKey t [] (.afterKey .line)
  | .headerStart =>
    match t with
    | .blank _ => r.goTo (.headerKey false [])
    | .openBracket => r.goTo (.headerKey true [])
    | t => r.takeKey t [] (.afterHeaderKey false)
  | .headerKey element keys =>
    match t with
    | .blank _ => some r
    | t => r.takeKey t keys (.afterHeaderKey element)
  | .afterHeaderKey element keys =>
    match t with
    | .blank _ => some r
    | .dot => r.goTo (.headerKey element keys)
    | .closeBracket => if element then r.goTo (.headerEnd keys) else r.openSection false keys
    | _ => none
  | .headerEnd keys => if t = .closeBracket then r.openSection true keys else none
  | .key home keys =>
    match t with
    | .blank _ => some r
    | t => r.takeKey t keys (.afterKey home)
  | .afterKey home keys =>
    match home, t with
    | _, .blank _ => some r
    | _, .dot => r.goTo (.key home keys)
    | _, .equals => some (r.takeKeys home keys)
    | .inline entries, .newline => r.goTo (.equalsBelow entries keys)
    | _, _ => none
  | .equalsBelow entries keys =>
    match t with
    | .blank _ | .newline => some r
    | .equals => some (r.takeKeys (.inline entries) keys)
    | _ => none
  | .value =>
    match t, r.opened with
    | .newline, _ :: _ => some r
    | t, _ => r.valueStep t
  | .itemOrEnd =>
    match t with
    | .newline => some r
    | .closeBracket => r.closeArray
    | t => r.valueStep t
  | .pairOrEnd entries =>
    match t with
    | .blank _ | .newline => some r
    | .closeBrace => r.closeInline entries
    | t => r.takeKey t [] (.afterKey (.inline entries))
  | .scalar read =>
    match t with
    | .word more => r.goTo (.scalar (read ++ more))
    | .dot => r.goTo (.scalar (read ++ ['.']))
    | .blank single =>
      if single ∧ isDate read then r.goTo (.afterDate read) else r.scalarEnd read t
    | t => r.scalarEnd read t
  | .afterDate read =>
    match t with
    | .word more =>
      if more.head?.any Char.isDigit then r.goTo (.scalar (read ++ ' ' :: more)) else none
    | t => r.scalarEnd read t
  | .lineEnd | .afterItem | .afterPair _ => r.endStep t

end Reader

/-- The settings in a document. -/
def settings? (document : List Char) : Option Table := do
  let r ← ((← tokens? document) ++ [Token.newline]).foldlM Reader.step .start
  match r.place with
  | .lineStart => some (branchToTable r.root)
  | _ => none

end DirectoryLookup.Toml
