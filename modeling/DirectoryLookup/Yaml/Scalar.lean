import DirectoryLookup.Number.Digits
import DirectoryLookup.Text.CodePoint
import DirectoryLookup.Yaml.Place

/-!
# YAML scalars

The text of a scalar is written plain, between quotes, or as a block of indented lines. Plain and
quoted texts may go on over several lines and are folded: a line break becomes a space, and each
further one a line break. The lines of a block are kept or folded, and the breaks at its end are
kept, dropped, or cut to one.
-/

namespace DirectoryLookup.Yaml

open Number

/-! ## Folding -/

/-- What stands between two parts of a text. -/
inductive Gap
  /-- Blanks on one line, the last one first. -/
  | blanks (read : List Char)
  /-- A line break and `more` after it. Whether the first becomes a space if it is alone. -/
  | lines (spaced : Bool) (more : Nat)
  deriving DecidableEq, Repr

namespace Gap

/-- No gap at all. -/
def closed : Gap :=
  .blanks []

/-- Whether the parts stand on different lines. -/
def isLines : Gap → Bool
  | blanks _ => false
  | lines _ _ => true

/-- The gap with one blank more. Around line breaks blanks do not count. -/
def addBlank (c : Char) : Gap → Gap
  | blanks read => blanks (c :: read)
  | g => g

/-- The gap with one line break more. -/
def addBreak : Gap → Gap
  | blanks _ => lines true 0
  | lines spaced more => lines spaced (more + 1)

/-- What a text has in place of the gap. -/
def fold : Gap → List Char
  | blanks read => read.reverse
  | lines spaced 0 => if spaced then [' '] else []
  | lines _ more => List.replicate more '\n'

end Gap

/-! ## Plain texts -/

/-- Whether a plain text goes on with the first character, which is no blank and ends no line. -/
def staysPlain (inFlow : Bool) (text : List Spot) : Bool :=
  let next := charAt (text.drop 1)
  !(charAt text == ':' && (endsWord next || (inFlow && isFlow next))) &&
    !(inFlow && isFlow (charAt text))

/-- The rest of a plain text, after characters read, the last one first, and a gap: the whole
text, whether a line has ended behind it, and the spots that follow. The lines of the text are
indented at least this far; a tab may stand in their indentation only if nothing follows it. -/
def plainFrom? (inFlow : Bool) (indent : Int) (read : List Char) (gap : Gap) :
    List Spot → Option (List Char × Bool × List Spot)
  | [] => none
  | s :: rest =>
    let ended := some (read.reverse, gap.isLines, s :: rest)
    if isBlank s.char then
      if gap.isLines ∧ s.char = '\t' ∧ (s.column : Int) < indent then
        if endsLine (charAt (dropSpacing rest)) then
          plainFrom? inFlow indent read gap (dropSpacing rest)
        else none
      else plainFrom? inFlow indent read (gap.addBlank s.char) rest
    else if isBreak s.char then plainFrom? inFlow indent read gap.addBreak rest
    else if s.char = endMark then ended
    else
      let opensPart := gap ≠ .closed ∨ read = []
      if !inFlow ∧ gap ≠ .closed ∧ (s.column : Int) < indent then ended
      else if opensPart ∧ (atDocumentMark (s :: rest) ∨ s.char = '#') then ended
      else if opensPart ∧ inFlow ∧ s.char = '-' ∧ isFlow (charAt rest) then none
      else if staysPlain inFlow (s :: rest) then
        plainFrom? inFlow indent (s.char :: (gap.fold.reverse ++ read)) .closed rest
      else ended
termination_by text => text.length
decreasing_by
  all_goals
    have := length_dropSpacing_le rest
    simp only [List.length_cons]
    omega

/-! ## Quoted texts -/

/-- The character that an escape of one letter stands for. -/
def shortEscape? : Char → Option Char
  | '0' => some '\x00'
  | 'a' => some '\x07'
  | 'b' => some '\x08'
  | 't' => some '\t'
  | '\t' => some '\t'
  | 'n' => some '\n'
  | 'v' => some '\x0b'
  | 'f' => some '\x0c'
  | 'r' => some '\r'
  | 'e' => some '\x1b'
  | ' ' => some ' '
  | '"' => some '"'
  | '/' => some '/'
  | '\\' => some '\\'
  | 'N' => some '\u0085'
  | '_' => some '\u00a0'
  | 'L' => some '\u2028'
  | 'P' => some '\u2029'
  | _ => none

/-- How many hexadecimal digits follow the letter of an escape. -/
def hexCount : Char → Nat
  | 'x' => 2
  | 'u' => 4
  | 'U' => 8
  | _ => 0

/-- The character that an escape stands for, given what follows the backslash, and how many
characters the escape takes there. -/
def escape? (text : List Spot) : Option (Char × Nat) :=
  let letter := charAt text
  match hexCount letter with
  | 0 => (shortEscape? letter).map (·, 1)
  | count => do
    let c ← Text.charOf? (← natOfBase? 16 (chars ((text.drop 1).take count)))
    return (c, count + 1)

/-- The rest of a quoted text, after characters read, the last one first, and a gap, with what
follows the closing quote. Between double quotes a backslash makes an escape, and one at the end of
a line joins the lines; between single quotes the quote itself is written twice. -/
def quotedFrom? (double : Bool) (indent : Int) (read : List Char) (gap : Gap) :
    List Spot → Option (List Char × List Spot)
  | [] => none
  | s :: rest =>
    if s.char = endMark then none
    else if isBlank s.char then
      if gap.isLines ∧ s.char = '\t' ∧ (s.column : Int) < indent then none
      else quotedFrom? double indent read (gap.addBlank s.char) rest
    else if isBreak s.char then quotedFrom? double indent read gap.addBreak rest
    else if (s.column : Int) < indent ∨ atDocumentMark (s :: rest) then none
    else
      let read := gap.fold.reverse ++ read
      if double then
        if s.char = '"' then some (read.reverse, rest)
        else if s.char = '\\' then
          if isBreak (charAt rest) then
            quotedFrom? double indent read (.lines false 0) (rest.drop 1)
          else
            match escape? rest with
            | some (c, taken) => quotedFrom? double indent (c :: read) .closed (rest.drop taken)
            | none => none
        else quotedFrom? double indent (s.char :: read) .closed rest
      else if s.char = '\x27' then
        if charAt rest = '\x27' then
          quotedFrom? double indent ('\x27' :: read) .closed (rest.drop 1)
        else some (read.reverse, rest)
      else quotedFrom? double indent (s.char :: read) .closed rest
termination_by text => text.length
decreasing_by
  all_goals
    simp only [List.length_cons, List.length_drop]
    omega

/-! ## Blocks -/

/-- What becomes of the line breaks at the end of a block. -/
inductive Chomp
  /-- The first is kept. -/
  | clip
  | strip
  | keep
  deriving DecidableEq, Repr

/-- What a sign at the head of a block means. -/
def chompOf? : Char → Option Chomp
  | '+' => some .keep
  | '-' => some .strip
  | _ => none

/-- A digit at the head of a block, which is not zero, or zero if there is none. -/
def increment? (text : List Spot) : Option (Nat × List Spot) :=
  let c := charAt text
  if c.isDigit then if c = '0' then none else some (digitValue c, text.drop 1)
  else some (0, text)

/-- The head of a block after the character that opens it: what becomes of the breaks at the end,
and how much further than its surroundings it is indented, or zero. They stand in any order. -/
def blockHead? (text : List Spot) : Option (Chomp × Nat × List Spot) :=
  match chompOf? (charAt text) with
  | some chomp => (increment? (text.drop 1)).map (chomp, ·)
  | none => do
    let (n, rest) ← increment? text
    return match chompOf? (charAt rest) with
      | some chomp => (chomp, n, rest.drop 1)
      | none => (.clip, n, rest)

/-- The indentation of a block whose head does not give it: that of its first line, or of an empty
line above it that is longer, and more than that of its surroundings. -/
def blockIndent (surrounding : Int) (text : List Spot) : Nat :=
  let isEmpty (s : Spot) := s.char == ' ' || isBreak s.char
  let columns := (text.takeWhile isEmpty ++ [here (text.dropWhile isEmpty)]).map (·.column)
  max (columns.foldl max 0) (surrounding + 1).toNat

/-- Whether a spot is indentation of a block, or ends an empty line in it. -/
def isIndentation (indent : Nat) (s : Spot) : Bool :=
  (s.char == ' ' && s.column < indent) || isBreak s.char

/-- How many lines are empty before the next line of a block, and the spots of that line. -/
def dropIndentation (indent : Nat) (text : List Spot) : Nat × List Spot :=
  ((text.takeWhile (isIndentation indent)).countP (isBreak ·.char),
    text.dropWhile (isIndentation indent))

theorem length_dropIndentation_le (indent : Nat) (text : List Spot) :
    (dropIndentation indent text).2.length ≤ text.length :=
  length_dropWhile_le _ _

/-- A block being read. -/
structure Block where
  read : List Char := []
  /-- Whether a line has ended. -/
  broken : Bool := false
  /-- How many empty lines have come since. -/
  empty : Nat := 0
  /-- Whether the last line starts with a blank. -/
  blankStart : Bool := false

/-- What a block has between the lines read and the next one. Lines are folded unless one of them
starts with a blank. -/
def Block.gap (b : Block) (folded blankNext : Bool) : List Char :=
  if folded && b.broken && !b.blankStart && !blankNext then (Gap.lines true b.empty).fold
  else List.replicate (b.broken.toNat + b.empty) '\n'

/-- The lines of a block, and the spots that follow. -/
def Block.lines (folded : Bool) (indent : Nat) (b : Block) (text : List Spot) :
    Block × List Spot :=
  match text with
  | [] => (b, text)
  | s :: rest =>
    if s.column ≠ indent ∨ endsLine s.char ∨ (indent = 0 ∧ hasMark '.' text) then (b, text)
    else
      let blankStart := isBlank s.char
      let line := s.char :: chars (rest.takeWhile (!endsLine ·.char))
      let read := b.read ++ b.gap folded blankStart ++ line
      let after := rest.dropWhile (!endsLine ·.char)
      if charAt after = endMark then ({ read := read, blankStart := blankStart }, after)
      else
        let body := dropIndentation indent (after.drop 1)
        Block.lines folded indent
          { read := read, broken := true, empty := body.1, blankStart := blankStart } body.2
termination_by text.length
decreasing_by
  have h1 := length_dropWhile_le (!endsLine ·.char) rest
  have h2 := length_dropIndentation_le indent ((rest.dropWhile (!endsLine ·.char)).drop 1)
  simp only [List.length_cons, List.length_drop] at h2 ⊢
  omega

/-- The text of a block without lines, given whether the line of its head has ended and how many
empty lines follow it. -/
def emptyBlock (chomp : Chomp) (broken : Bool) (empty : Nat) : List Char :=
  match chomp with
  | .strip => []
  | .clip => List.replicate broken.toNat '\n'
  | .keep => List.replicate (if empty = 0 then broken.toNat else empty) '\n'

/-- A block after the character that opens it, in surroundings with this indentation. -/
def block? (folded : Bool) (surrounding : Int) (text : List Spot) :
    Option (List Char × List Spot) := do
  let (chomp, increment, rest) ← blockHead? text
  let rest ← dropSpacing? rest
  if !endsLine (charAt rest) then none
  let broken := isBreak (charAt rest)
  let body := if broken then rest.drop 1 else rest
  if charAt body = '\t' then none
  let indent :=
    if increment = 0 then blockIndent surrounding body else (max surrounding 0).toNat + increment
  let (empty, body) := dropIndentation indent body
  let start := here body
  if start.char = endMark then return (emptyBlock chomp broken empty, body)
  if start.column < indent ∧ surrounding < start.column then none
  let (b, rest) := Block.lines folded indent { empty := empty } body
  let lastBreak := b.broken.toNat +
    (if charAt rest = endMark ∧ max indent 1 ≤ (here rest).column then 1 else 0)
  let breaks := match chomp with
    | .strip => 0
    | .clip => lastBreak
    | .keep => lastBreak + b.empty
  return (b.read ++ List.replicate breaks '\n', rest)

end DirectoryLookup.Yaml
