import DirectoryLookup.Number.Digits
import DirectoryLookup.Settings.Raw
import DirectoryLookup.Text.Blank
import DirectoryLookup.Text.CodePoint

/-!
# INI documents

A document is a sequence of sections, comments, and keys with values. A key goes up to an equals
sign or a colon, and a value to the end of its line, or to its closing quote and on to the end of
the line. Blanks around names and values do not count, and a backslash makes an escape in each of
them. All values are texts.

A section with a name that was used before takes the place of the earlier one. A comment has a line
of its own, from the first column on.
-/

namespace DirectoryLookup.Ini

open Number (natOfBase?)
open Settings (Raw Table)

/-! ## Texts -/

/-- The character that a backslash and a letter stand for. -/
def escaped (letter : Char) : Char :=
  match letter with
  | '0' => '\x00'
  | 'a' => '\x07'
  | 'b' => '\x08'
  | 't' => '\t'
  | 'r' => '\r'
  | 'n' => '\n'
  | c => c

/-- The text up to a character, after characters read, the last one first, with that character and
what follows it. Whether the text may end with the document. A backslash at the end of a line joins
the lines. -/
def textUntil? (isEnd : Char → Bool) (mayEnd : Bool) (read : List Char) :
    List Char → Option (List Char × List Char)
  | [] => if mayEnd then some (read.reverse, []) else none
  | ['\\'] => if mayEnd then some (('\\' :: read).reverse, []) else none
  | '\\' :: '\n' :: text => textUntil? isEnd mayEnd read text
  | '\\' :: 'x' :: a :: b :: c :: d :: text =>
    match (natOfBase? 16 [a, b, c, d]).bind Text.charOf? with
    | some e => textUntil? isEnd mayEnd (e :: read) text
    | none => none
  | '\\' :: letter :: text =>
    if letter = 'x' then none else textUntil? isEnd mayEnd (escaped letter :: read) text
  | c :: text =>
    if isEnd c then some (read.reverse, c :: text)
    else textUntil? isEnd mayEnd (c :: read) text

/-- Whether a value ends at a character. -/
def endsLine (c : Char) : Bool :=
  c == '\n' || c == '\r'

/-- Whether a key ends at a character. -/
def endsKey (c : Char) : Bool :=
  c == '=' || c == ':'

/-- A value after the character that ends its key, and what follows it. -/
def value? (text : List Char) : Option (List Char × List Char) :=
  let text := text.dropWhile fun c => Text.isBlank c && !endsLine c
  match text with
  | '"' :: inside => quoted '"' inside
  | '\x27' :: inside => quoted '\x27' inside
  | _ => textUntil? endsLine true [] text
where
  /-- A value after its first quote. -/
  quoted (quote : Char) (text : List Char) : Option (List Char × List Char) := do
    let (inside, rest) ← textUntil? (· == quote) false [] text
    let (behind, rest) ← textUntil? endsLine true [] (rest.drop 1)
    return (inside ++ behind, rest)

/-! ## Documents -/

/-- A text without blanks around it, as a name or value. -/
def trimmed (text : List Char) : String :=
  String.ofList (Text.trim text)

/-- What has been read of a document. -/
structure Reader where
  settings : Table := []
  /-- The section that is open. -/
  heading : Option String := none
  /-- The key whose value comes next; empty if there is none. -/
  key : String := ""

namespace Reader

/-- Opens a section. -/
def openSection (r : Reader) (name : String) : Reader :=
  { r with settings := Entries.put r.settings name (.table []), heading := some name }

/-- Sets the key to a value. -/
def set (r : Reader) (value : String) : Reader :=
  let settings := match r.heading with
    | none => Entries.put r.settings r.key (.text value)
    | some name =>
      let entries := Settings.entriesOf (Entries.get? r.settings name)
      Entries.put r.settings name (.table (Entries.put entries r.key (.text value)))
  { r with settings := settings, key := "" }

/-- The next part of a document, which starts with a character that is no blank, and what follows
it. Whether the character stands in the first column. -/
def next? (r : Reader) (first : Bool) (text : List Char) : Option (Reader × List Char) :=
  match text with
  | [] => some (r, [])
  | c :: rest =>
    if c = ';' ∨ c = '#' then
      if first then some (r, rest.dropWhile (· != '\n')) else none
    else if c = '[' then do
      let (name, rest) ← textUntil? (· == ']') false [] rest
      return (r.openSection (trimmed name), rest.drop 1)
    else if endsKey c then do
      if r.key = "" then none
      let (value, rest) ← value? rest
      return (r.set (trimmed value), rest)
    else do
      let (key, rest) ← textUntil? endsKey false [] text
      return ({ r with key := trimmed key }, rest)

/-- The settings of a document, given the rest of it and whether that starts a line. Each part
takes at least one character. -/
def run? (r : Reader) (startsLine : Bool) (text : List Char) : Option Table :=
  let blanks := text.takeWhile Text.isBlank
  let ready := text.dropWhile Text.isBlank
  if ready = [] then some r.settings
  else
    match r.next? (blanks.getLast?.elim startsLine (· == '\n')) ready with
    | none => none
    | some (r, rest) => if rest.length < text.length then r.run? false rest else none
termination_by text.length

end Reader

/-- The settings in a document. -/
def settings? (text : List Char) : Option Table :=
  Reader.run? {} true text

end DirectoryLookup.Ini
