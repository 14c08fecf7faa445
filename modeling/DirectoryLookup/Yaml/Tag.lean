import DirectoryLookup.Number.Digits
import DirectoryLookup.Text.CodePoint
import DirectoryLookup.Yaml.Place

/-!
# YAML tags, anchors and directives

A node may have a tag, which says how it is to be understood, and an anchor, by which it can be
repeated. A tag is a handle and a suffix; a directive in front of a document may say what a handle
stands for.
-/

namespace DirectoryLookup.Yaml

open Number (hexValue?)

/-! ## Anchors -/

/-- The characters of an anchor. -/
def isAnchorChar (c : Char) : Bool :=
  !endsWord c && !isFlow c && c != '\ufeff'

/-- The name of an anchor, and what follows. -/
def anchorName? (text : List Spot) : Option (List Char × List Spot) :=
  match chars (text.takeWhile (isAnchorChar ·.char)) with
  | [] => none
  | name => some (name, text.dropWhile (isAnchorChar ·.char))

/-! ## Addresses -/

/-- The characters of an address. -/
def isAddressChar (c : Char) : Bool :=
  c.isAlphanum || "-#;/?:@&=+$,_.!~*'()[]%".contains c

/-- The characters of a suffix. -/
def isSuffixChar (c : Char) : Bool :=
  isAddressChar c && !isFlow c && c != '!'

/-- The byte that a percent sign and two hexadecimal digits write. -/
def byteOf? : List Char → Option Nat
  | ['%', a, b] => do return (← hexValue? a) * 16 + (← hexValue? b)
  | _ => none

/-- The character that bytes write after percent signs, and how many spots they take. A second byte
is put behind the first. -/
def percent? (text : List Spot) : Option (Char × Nat) := do
  let first ← byteOf? (chars (text.take 3))
  if first < 0x80 then return (Char.ofNat first, 3)
  if first < 0xC0 ∨ 0xE0 ≤ first then none
  let second ← byteOf? (chars ((text.drop 3).take 3))
  if second < 0x80 ∨ 0xC0 ≤ second then none
  return (← Text.charOf? (first * 256 + second), 6)

/-- The rest of an address after characters read, the last one first, and what follows it. -/
def addressFrom? (isChar : Char → Bool) (read : List Char) (text : List Spot) :
    Option (List Char × List Spot) :=
  match text with
  | [] => some (read.reverse, [])
  | s :: rest =>
    if s.char = '%' then
      match percent? text with
      | some (c, taken) => addressFrom? isChar (c :: read) (rest.drop (taken - 1))
      | none => none
    else if isChar s.char then addressFrom? isChar (s.char :: read) rest
    else some (read.reverse, text)
termination_by text.length
decreasing_by
  all_goals
    simp only [List.length_cons, List.length_drop]
    omega

/-! ## Tags -/

/-- A tag as it is written. -/
structure Tag where
  handle : List Char
  suffix : List Char
  deriving DecidableEq, Repr

/-- A handle: an exclamation mark, and perhaps a name and another one. -/
def handle? (text : List Spot) : Option (List Char × List Spot) :=
  if charAt text ≠ '!' then none
  else
    let name := (text.drop 1).takeWhile (isNameChar ·.char)
    let rest := (text.drop 1).dropWhile (isNameChar ·.char)
    if charAt rest = '!' then some ('!' :: chars name ++ ['!'], rest.drop 1)
    else some ('!' :: chars name, rest)

/-- A tag that begins here, up to what follows. Of a handle without its second mark only the mark
belongs to the handle. A mark alone is a suffix without a handle. -/
def tag? (text : List Spot) : Option (Tag × List Spot) :=
  if charAt (text.drop 1) = '<' then do
    let (suffix, rest) ← addressFrom? isAddressChar [] (text.drop 2)
    if charAt rest ≠ '>' then none
    return (⟨[], suffix⟩, rest.drop 1)
  else do
    let (handle, rest) ← handle? text
    let whole := 2 ≤ handle.length ∧ handle.getLast? = some '!'
    let (suffix, rest) ← addressFrom? isSuffixChar [] rest
    if whole then
      if suffix = [] then none
      return (⟨handle, suffix⟩, rest)
    else
      match handle.drop 1 ++ suffix with
      | [] => return (⟨[], ['!']⟩, rest)
      | suffix => return (⟨['!'], suffix⟩, rest)

/-! ## Directives -/

/-- A line in front of a document. -/
inductive Directive
  /-- The version of the format. -/
  | version
  /-- What a handle stands for. -/
  | handle (name address : List Char)
  deriving DecidableEq, Repr

/-- The text after a number of at most nine digits. -/
def dropNumber? (text : List Spot) : Option (List Spot) :=
  let digits := text.takeWhile (·.char.isDigit)
  if digits = [] ∨ 9 < digits.length then none else some (text.dropWhile (·.char.isDigit))

/-- What an address in a directive starts with: anything but flow punctuation, or a mark. -/
def startsAddress (c : Char) : Bool :=
  isSuffixChar c || c == '!'

/-- A directive after its percent sign. One that is not known stands for an empty handle. -/
def directive? (text : List Spot) : Option (Directive × List Spot) := do
  let name := chars (text.takeWhile (isNameChar ·.char))
  let rest := text.dropWhile (isNameChar ·.char)
  if name = [] ∨ !endsWord (charAt rest) then none
  let value := rest.dropWhile (isBlank ·.char)
  if name = "YAML".toList then
    let rest ← dropNumber? value
    if charAt rest ≠ '.' then none
    return (.version, ← dropNumber? (rest.drop 1))
  else if name = "TAG".toList then
    let (handle, rest) ← handle? value
    if handle.getLast? ≠ some '!' then none
    let rest := rest.dropWhile (isBlank ·.char)
    if !startsAddress (charAt rest) then none
    let mark := if charAt rest = '!' then ['!'] else []
    let (address, rest) ← addressFrom? isAddressChar mark (rest.drop mark.length)
    if !endsWord (charAt rest) then none
    return (.handle handle address, rest)
  else return (.handle [] [], rest.dropWhile (!endsLine ·.char))

end DirectoryLookup.Yaml
