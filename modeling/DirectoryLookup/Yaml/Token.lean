import DirectoryLookup.Yaml.Scalar
import DirectoryLookup.Yaml.Tag

/-!
# YAML tokens

A YAML text is cut into tokens. Some of them are not written but follow from the layout: a block
collection starts where an entry or a key is indented further than what is around it, and ends
where the indentation goes back. Whether a node is a key shows only at the colon behind it; so the
place of a node that may be one is kept in mind, and the token of the key is put there later on.

In a block, such a key has to stand on one line with its colon, and not too far from it.
-/

namespace DirectoryLookup.Yaml

/-- A token of a text. -/
inductive Token
  | directive (d : Directive)
  | documentStart
  | documentEnd
  | blockSequence
  | blockMapping
  | blockEnd
  | entry
  | key
  | value
  | openBracket
  | closeBracket
  | openBrace
  | closeBrace
  | comma
  | alias (name : List Char)
  | anchor (name : List Char)
  | tag (t : Tag)
  | plain (text : List Char)
  /-- A text between quotes, or a block. -/
  | quoted (text : List Char)
  deriving DecidableEq, Repr

/-! ## The scanner -/

/-- An indentation that is in force. -/
structure Level where
  column : Int
  /-- Whether a block collection has it, or only what follows a key or an entry of one. -/
  isBlock : Bool
  deriving DecidableEq, Repr

/-- A token that may turn out to begin a key. -/
structure PossibleKey where
  place : Place
  /-- How many tokens come before it. -/
  position : Nat
  /-- Whether nothing but a key can stand there. -/
  required : Bool
  deriving DecidableEq, Repr

/-- A flow collection that is open. -/
structure Flow where
  isSequence : Bool
  /-- Whether a question mark has announced the key of the entry being read. -/
  announced : Bool
  /-- What may begin a key around the collection: itself, if anything. -/
  key : Option PossibleKey
  deriving DecidableEq, Repr

/-- A scanner between two tokens. -/
structure Scanner where
  rest : List Spot
  tokens : Array Token := #[]
  /-- The indentations in force, the innermost first. -/
  levels : List Level := []
  /-- The flow collections that are open, the innermost first. -/
  flows : List Flow := []
  keyAllowed : Bool := true
  key : Option PossibleKey := none
  /-- Where a colon makes a value even if nothing separates the two. -/
  adjacent : Option Nat := none

namespace Scanner

/-- The indentation of what is around. -/
def indent (k : Scanner) : Int :=
  (k.levels.head?.map (·.column)).getD (-1)

/-- Whether no flow collection is open. -/
def inBlock (k : Scanner) : Bool :=
  k.flows.isEmpty

/-- The scanner after one token more. -/
def emit (k : Scanner) (token : Token) : Scanner :=
  { k with tokens := k.tokens.push token }

/-! ## Indentation -/

/-- Opens a block collection whose first token stands at a column, unless one is open there. -/
def openLevel (k : Scanner) (column position : Nat) (token : Token) : Scanner :=
  if !k.inBlock then k
  else
    let levels := if k.indent ≤ (column : Int) then k.levels.dropWhile (!·.isBlock) else k.levels
    let k := { k with levels := levels }
    if k.indent < (column : Int) then
      { k with
        levels := ⟨column, true⟩ :: levels
        tokens := k.tokens.insertIdxIfInBounds position token }
    else k

/-- What follows an entry or a key of a block collection is indented further than that. -/
def indentFurther (k : Scanner) : Scanner :=
  if k.inBlock ∧ k.levels.head?.any (·.isBlock) then
    { k with levels := ⟨k.indent + 1, false⟩ :: k.levels }
  else k

/-- Closes the block collections that are indented further than a column. -/
def closeLevels (k : Scanner) (column : Int) : Scanner :=
  if !k.inBlock then k
  else
    let closed := k.levels.takeWhile (column < ·.column)
    { k with
      levels := k.levels.dropWhile (column < ·.column)
      tokens := k.tokens ++ Array.replicate (closed.countP (·.isBlock)) .blockEnd }

/-- Only the indentation of block collections stays in force. -/
def dropInnerLevels (k : Scanner) : Scanner :=
  { k with levels := k.levels.dropWhile (!·.isBlock) }

/-! ## Keys -/

/-- The farthest that a colon stands from the start of its key. -/
def keyLimit : Nat :=
  1024

/-- Keeps in mind that a key may begin here. -/
def noteKey (k : Scanner) : Scanner :=
  if !k.keyAllowed then k
  else
    let s := here k.rest
    let required := k.inBlock && k.indent == s.column && k.levels.head?.any (·.isBlock)
    { k with key := some ⟨s.toPlace, k.tokens.size, required⟩ }

/-- Gives up the key that may have begun. -/
def dropKey? (k : Scanner) : Option Scanner :=
  if k.key.any (·.required) then none else some { k with key := none }

/-- Gives up the key that may have begun, if its colon does not come any more. -/
def dropLateKey? (k : Scanner) : Option Scanner :=
  let s := here k.rest
  let late (p : PossibleKey) := p.place.line < s.line || p.place.index + keyLimit < s.index
  if k.inBlock ∧ k.key.any late then k.dropKey? else some k

/-! ## Between tokens -/

/-- What follows blanks, breaks and comments, and whether a line has ended. A tab may stand in the
indentation of a line only if nothing follows it. -/
def separation? (indent : Int) (inComment broken : Bool) :
    List Spot → Option (Bool × List Spot)
  | [] => some (broken, [])
  | s :: rest =>
    if isBreak s.char then separation? indent false true rest
    else if s.char = endMark then some (broken, s :: rest)
    else if inComment then separation? indent true broken rest
    else if isBlank s.char then
      if s.char = '\t' ∧ s.opensLine ∧ (s.column : Int) < indent ∧
          !endsLine (charAt (dropSpacing rest)) then none
      else separation? indent false broken rest
    else if s.char = '#' then separation? indent true broken rest
    else some (broken, s :: rest)

/-- Goes on to the next token. At the start of a line in a block, a key may begin. -/
def skip? (k : Scanner) : Option Scanner := do
  let (broken, rest) ← separation? k.indent false false k.rest
  return { k with rest := rest, keyAllowed := k.keyAllowed || (broken && k.inBlock) }

/-! ## Documents -/

/-- A directive. -/
def directive? (k : Scanner) : Option Scanner := do
  let k ← (k.closeLevels (-1)).dropKey?
  let (d, rest) ← Yaml.directive? (k.rest.drop 1)
  let rest ← dropSpacing? rest
  if !endsLine (charAt rest) then none
  let rest := if isBreak (charAt rest) then rest.drop 1 else rest
  return { k.emit (.directive d) with rest := rest, keyAllowed := false }

/-- The mark where a document starts or ends. -/
def mark? (k : Scanner) (token : Token) : Option Scanner := do
  let k ← (k.closeLevels (-1)).dropKey?
  return { k.emit token with rest := k.rest.drop 3, keyAllowed := false }

/-- The mark where a document ends, which stands alone on its line. -/
def documentEnd? (k : Scanner) : Option Scanner := do
  let k ← k.mark? .documentEnd
  let rest ← dropSpacing? k.rest
  if !endsLine (charAt rest) then none
  return { k with rest := rest }

/-! ## Block collections -/

/-- The hyphen of an entry. -/
def entry? (k : Scanner) : Option Scanner := do
  if !k.inBlock ∨ !k.keyAllowed then none
  let behind := k.rest.drop 1
  let rest ← dropSpacing? behind
  let hasTab := (behind.takeWhile (isBlank ·.char)).any (·.char == '\t')
  if hasTab ∧ charAt rest = '-' ∧ endsWord (charAt (rest.drop 1)) then none
  let k := k.openLevel (here k.rest).column k.tokens.size .blockSequence
  let k := if isBreak (charAt rest) ∨ isFlow (charAt rest) then k.indentFurther else k
  let k ← k.dropKey?
  return { k.emit .entry with rest := rest, keyAllowed := true }

/-- What follows spaces, breaks and comments. -/
def dropLines (inComment : Bool) : List Spot → List Spot
  | [] => []
  | s :: rest =>
    if isBreak s.char then dropLines false rest
    else if s.char = endMark then s :: rest
    else if inComment ∨ s.char = '#' then dropLines true rest
    else if s.char = ' ' then dropLines false rest
    else s :: rest

/-- The question mark that announces a key. No tab may follow it. -/
def question? (k : Scanner) : Option Scanner := do
  let behind := k.rest.drop 1
  let rest := dropLines false behind
  if charAt behind ≠ ' ' ∧ !isBreak (charAt behind) then none
  if charAt rest = '\t' then none
  let k ← match k.flows with
    | f :: flows => some { k with flows := { f with announced := true } :: flows }
    | [] =>
      if !k.keyAllowed then none
      else some (k.openLevel (here k.rest).column k.tokens.size .blockMapping)
  let k ← k.dropKey?
  return { k.emit .key with rest := rest, keyAllowed := k.inBlock }

/-- Whether a tab alone separates a colon from a value that begins with a letter, a digit or a
hyphen, given what follows the colon. -/
def hasBareTab (behind : List Spot) : Bool :=
  let blanks := behind.takeWhile (isBlank ·.char)
  !blanks.isEmpty && blanks.all (·.char == '\t') && isNameChar (charAt (dropSpacing behind))

/-- Whether a key and a colon at a place make a pair in a flow sequence that is not announced; the
two have to stand on one line. -/
def isSplitPair (k : Scanner) (key colon : Place) : Bool :=
  k.flows.head?.any fun f => f.isSequence && !f.announced && key.line < colon.line

/-- The colon in front of a value: behind the key that has begun, or behind a key without text or
one that was announced. -/
def colon? (k : Scanner) : Option Scanner := do
  let s := here k.rest
  let behind := k.rest.drop 1
  let opensFlow := charAt behind = '[' ∨ charAt behind = '\x7b'
  if !k.inBlock ∧ opensFlow ∧ k.adjacent ≠ some s.index then none
  if hasBareTab behind then none
  match k.key with
  | some p =>
    if k.isSplitPair p.place s.toPlace then none
    let k := { k with tokens := k.tokens.insertIdxIfInBounds p.position .key, key := none }
    let k := (k.openLevel p.place.column p.position .blockMapping).indentFurther
    return { k.emit .value with rest := behind, keyAllowed := false }
  | none =>
    if k.inBlock ∧ !k.keyAllowed then none
    let k := (k.openLevel s.column k.tokens.size .blockMapping).indentFurther
    return { k.emit .value with rest := behind, keyAllowed := k.inBlock }

/-! ## Flow collections -/

/-- How many flow collections may be open. -/
def flowLimit : Nat :=
  255

/-- The bracket or brace that opens a flow collection. -/
def openFlow? (k : Scanner) (isSequence : Bool) : Option Scanner := do
  if flowLimit ≤ k.flows.length then none
  let rest ← dropSpacing? (k.rest.drop 1)
  let k := k.noteKey.indentFurther
  return { k.emit (if isSequence then .openBracket else .openBrace) with
    rest := rest
    flows := ⟨isSequence, false, k.key⟩ :: k.flows
    key := none
    keyAllowed := true }

/-- The bracket or brace that closes a flow collection. -/
def closeFlow? (k : Scanner) (token : Token) : Option Scanner := do
  let k ← k.dropKey?
  let rest ← dropSpacing? (k.rest.drop 1)
  match k.flows with
  | [] => none
  | f :: flows =>
    return { k.emit token with
      rest := rest
      flows := flows
      key := f.key
      keyAllowed := false
      adjacent := if flows.isEmpty then k.adjacent else some (here rest).index }

/-- The comma between entries of a flow collection. -/
def comma? (k : Scanner) : Option Scanner := do
  let k ← k.dropKey?
  let rest ← dropSpacing? (k.rest.drop 1)
  match k.flows with
  | [] => none
  | f :: flows =>
    return { k.emit .comma with
      rest := rest
      flows := { f with announced := false } :: flows
      keyAllowed := true }

/-! ## Nodes -/

/-- A name after the sign of an anchor or alias. -/
def name? (k : Scanner) (token : List Char → Token) : Option Scanner := do
  let (name, rest) ← anchorName? (k.rest.drop 1)
  return { k.noteKey.emit (token name) with rest := rest, keyAllowed := false }

/-- A tag. -/
def tag? (k : Scanner) : Option Scanner := do
  let (t, rest) ← Yaml.tag? k.rest
  if !endsWord (charAt rest) ∧ (k.inBlock ∨ !isFlow (charAt rest)) then none
  return { k.noteKey.emit (.tag t) with rest := rest, keyAllowed := false }

/-- A plain text. -/
def plain? (k : Scanner) : Option Scanner := do
  let k := k.noteKey.dropInnerLevels
  let indent := k.indent + 1
  if !k.inBlock ∧ (here k.rest).column < indent then none
  let (text, broken, rest) ← plainFrom? (!k.inBlock) indent [] .closed k.rest
  return { k.emit (.plain text) with rest := rest, keyAllowed := broken }

/-- Whether a quoted text that starts on a line may end in front of what follows. -/
def endsQuoted (k : Scanner) (line : Nat) (rest : List Spot) : Bool :=
  let c := charAt rest
  endsLine c || (!k.inBlock && (c == ',' || c == ']' || c == '\x7d')) ||
    (c == ':' && (!k.inBlock || (here rest).line == line))

/-- A text between quotes. -/
def quoted? (k : Scanner) (double : Bool) : Option Scanner := do
  let (text, rest) ← quotedFrom? double k.indent [] .closed (k.rest.drop 1)
  let rest ← dropSpacing? rest
  if !k.endsQuoted (here k.rest).line rest then none
  let k ← { k.noteKey.emit (.quoted text) with rest := rest, keyAllowed := false }.skip?
  return { k with adjacent := some (here k.rest).index }

/-- A block of lines. -/
def block? (k : Scanner) (folded : Bool) : Option Scanner := do
  let k := k.noteKey.dropInnerLevels
  let (text, rest) ← Yaml.block? folded k.indent (k.rest.drop 1)
  return { k.emit (.quoted text) with rest := rest, keyAllowed := true }

/-! ## Whole texts -/

/-- The next token, which begins here. -/
def next? (k : Scanner) : Option Scanner :=
  let s := here k.rest
  let behind := charAt (k.rest.drop 1)
  if s.column = 0 ∧ s.char = '%' then k.directive?
  else if hasMark '-' k.rest then k.mark? .documentStart
  else if hasMark '.' k.rest then k.documentEnd?
  else if s.column < k.indent then none
  else match s.char with
    | '[' => k.openFlow? true
    | '\x7b' => k.openFlow? false
    | ']' => k.closeFlow? .closeBracket
    | '\x7d' => k.closeFlow? .closeBrace
    | ',' => k.comma?
    | '*' => k.name? .alias
    | '&' => k.name? .anchor
    | '!' => k.tag?
    | '"' => k.quoted? true
    | '\x27' => k.quoted? false
    | '-' => if endsWord behind then k.entry? else k.plain?
    | '?' => if endsWord behind then k.question? else k.plain?
    | ':' =>
      if endsWord behind ∨ (!k.inBlock ∧ (isFlow behind ∨ k.adjacent = some s.index)) then k.colon?
      else k.plain?
    | '|' => if k.inBlock then k.block? false else k.plain?
    | '>' => if k.inBlock then k.block? true else k.plain?
    | '%' => none
    | '@' => none
    | '\x60' => none
    | _ => k.plain?

/-- The tokens of a text whose end is reached. -/
def finish? (k : Scanner) : Option (List Token) := do
  if !k.inBlock then none
  let k ← k.dropKey?
  return (k.closeLevels (-1)).tokens.toList

/-- The tokens of a text. Each token takes at least one spot. -/
def run? (k : Scanner) : Option (List Token) :=
  match k.skip?.bind dropLateKey? with
  | none => none
  | some ready =>
    let ready := ready.closeLevels (here ready.rest).column
    if charAt ready.rest = endMark then ready.finish?
    else
      match ready.next? with
      | none => none
      | some next =>
        if next.rest.length < k.rest.length then next.run? else none
termination_by k.rest.length

end Scanner

/-- The tokens of a text, if it can be cut. -/
def tokens? (text : List Char) : Option (List Token) :=
  Scanner.run? { rest := spots text }

end DirectoryLookup.Yaml
