/-!
# Places in YAML texts

The layout of a YAML text has a meaning, so a text is read as characters with their places: spots.
Every line break, however it is written, is one spot, and the last spot is the end of the text,
which comes at the first zero character if there is one.
-/

namespace DirectoryLookup.Yaml

/-! ## Characters -/

/-- The character that stands for the end of a text. -/
def endMark : Char :=
  '\x00'

/-- Spaces and tabs. -/
def isBlank (c : Char) : Bool :=
  c == ' ' || c == '\t'

/-- A line break, as spots have it. -/
def isBreak (c : Char) : Bool :=
  c == '\n'

/-- A line ends at a break and at the end of the text. -/
def endsLine (c : Char) : Bool :=
  isBreak c || c == endMark

/-- A word ends at a blank and where a line ends. -/
def endsWord (c : Char) : Bool :=
  isBlank c || endsLine c

/-- The punctuation of flow collections. -/
def isFlow (c : Char) : Bool :=
  c == ',' || c == '[' || c == ']' || c == '\x7b' || c == '\x7d'

/-- The characters of names: letters, digits, the underscore and the hyphen. -/
def isNameChar (c : Char) : Bool :=
  c.isAlphanum || c == '_' || c == '-'

/-! ## Spots -/

/-- A place in a text. -/
structure Place where
  index : Nat := 0
  line : Nat := 0
  column : Nat := 0
  /-- Whether only blanks stand before it on its line. -/
  opensLine : Bool := true
  deriving DecidableEq, Repr, Inhabited

/-- The place after a character. -/
def Place.after (p : Place) (c : Char) : Place :=
  if isBreak c then { index := p.index + 1, line := p.line + 1 }
  else
    { p with
      index := p.index + 1
      column := p.column + 1
      opensLine := p.opensLine && isBlank c }

/-- A character with its place. -/
structure Spot extends Place where
  char : Char := endMark
  deriving DecidableEq, Repr, Inhabited

/-- The spots of a text that begins at a place. -/
def spotsFrom (p : Place) : List Char → List Spot
  | '\r' :: '\n' :: text => ⟨p, '\n'⟩ :: spotsFrom (p.after '\n') text
  | '\r' :: text => ⟨p, '\n'⟩ :: spotsFrom (p.after '\n') text
  | c :: text => if c = endMark then [⟨p, endMark⟩] else ⟨p, c⟩ :: spotsFrom (p.after c) text
  | [] => [⟨p, endMark⟩]

/-- The spots of a text. -/
def spots (text : List Char) : List Spot :=
  spotsFrom {} text

/-- The first spot. -/
def here (text : List Spot) : Spot :=
  text.headD {}

/-- The first character. -/
def charAt (text : List Spot) : Char :=
  (here text).char

/-- The characters of spots. -/
def chars (text : List Spot) : List Char :=
  text.map (·.char)

/-- Dropping spots makes no text longer. -/
theorem length_dropWhile_le (p : Spot → Bool) (text : List Spot) :
    (text.dropWhile p).length ≤ text.length :=
  (List.dropWhile_sublist p).length_le

/-! ## Lines -/

/-- The text after blanks and a comment. -/
def dropSpacing (text : List Spot) : List Spot :=
  let rest := text.dropWhile (isBlank ·.char)
  if charAt rest = '#' then rest.dropWhile (!endsLine ·.char) else rest

/-- The text after blanks and a comment, which has to stand after a blank. -/
def dropSpacing? (text : List Spot) : Option (List Spot) :=
  if charAt text = '#' then none else some (dropSpacing text)

theorem length_dropSpacing_le (text : List Spot) : (dropSpacing text).length ≤ text.length := by
  have h := length_dropWhile_le (isBlank ·.char) text
  unfold dropSpacing
  dsimp only
  split
  · exact Nat.le_trans (length_dropWhile_le _ _) h
  · exact h

/-- Whether a mark of three equal characters stands here, at the start of a line. -/
def hasMark (c : Char) (text : List Spot) : Bool :=
  (here text).column == 0 && chars (text.take 3) == [c, c, c] && endsWord (charAt (text.drop 3))

/-- Whether a document starts or ends here. -/
def atDocumentMark (text : List Spot) : Bool :=
  hasMark '-' text || hasMark '.' text

end DirectoryLookup.Yaml
