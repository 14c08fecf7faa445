import DirectoryLookup.Number.Digits
import DirectoryLookup.Text.CodePoint
import DirectoryLookup.Text.Comment

/-!
# RON tokens

A RON text is cut into punctuation, texts, and words, which are names and numbers as written. A
text stands between double quotes with its escapes resolved, or is raw: then as many number signs
surround its quotes as it takes, and nothing in it is an escape. A text of one character may stand
between single quotes. Between tokens there may be spaces and comments.
-/

namespace DirectoryLookup.Ron

open Number (natOfBase? hexValue?)

/-- A token of a text. -/
inductive Token
  | openParen
  | closeParen
  | openBrace
  | closeBrace
  | openBracket
  | closeBracket
  | comma
  | colon
  | sign
  | bang
  | text (content : List Char)
  | word (written : List Char)
  deriving DecidableEq, Repr

/-! ## Characters -/

/-- The characters between tokens. -/
def isSpace (c : Char) : Bool :=
  let n := c.toNat
  (0x09 ≤ n && n ≤ 0x0D) || n == 0x20 || n == 0x85 || n == 0x200E || n == 0x200F || n == 0x2028 ||
    n == 0x2029

/-- What may stand between tokens. -/
def spacing : Text.Spacing :=
  { isSpace := isSpace, endsLine := (· == '\n'), nested := true }

/-- The token that a character makes by itself. -/
def punctuation? : Char → Option Token
  | '(' => some .openParen
  | ')' => some .closeParen
  | '\x7b' => some .openBrace
  | '\x7d' => some .closeBrace
  | '[' => some .openBracket
  | ']' => some .closeBracket
  | ',' => some .comma
  | ':' => some .colon
  | '#' => some .sign
  | '!' => some .bang
  | _ => none

/-- The characters of words: letters, which are any characters beyond ASCII too, digits, the
underscore, and the signs of numbers. -/
def isWordChar (c : Char) : Bool :=
  c.isAlphanum || c == '_' || c == '+' || c == '-' || c == '.' ||
    (0x80 ≤ c.toNat && !isSpace c)

/-! ## Texts -/

/-- The character that a backslash and a letter stand for. -/
def escaped? : Char → Option Char
  | '\x27' => some '\x27'
  | '"' => some '"'
  | '\\' => some '\\'
  | 'n' => some '\n'
  | 'r' => some '\r'
  | 't' => some '\t'
  | '0' => some '\x00'
  | _ => none

/-- The character of an escape, given what follows the backslash, and how many characters the
escape takes there. -/
def escape? : List Char → Option (Char × Nat)
  | 'x' :: a :: b :: _ => do return (← Text.charOf? (← natOfBase? 16 [a, b]), 3)
  | 'u' :: '\x7b' :: rest => do
    let digits := rest.takeWhile (hexValue? · |>.isSome)
    if 6 < digits.length ∨ (rest.drop digits.length).head? ≠ some '\x7d' then none
    return (← Text.charOf? (← natOfBase? 16 digits), digits.length + 3)
  | letter :: _ => (escaped? letter).map (·, 1)
  | [] => none

/-- The rest of a text, after characters read, the last one first, and what follows its quote. -/
def textFrom? (read : List Char) (text : List Char) : Option (List Char × List Char) :=
  match text with
  | [] => none
  | c :: rest =>
    if c = '"' then some (read.reverse, rest)
    else if c = '\\' then
      match escape? rest with
      | some (e, taken) => textFrom? (e :: read) (rest.drop taken)
      | none => none
    else textFrom? (c :: read) rest
termination_by text.length
decreasing_by
  all_goals
    simp only [List.length_cons, List.length_drop]
    omega

/-- The rest of a raw text, after characters read, the last one first, and what follows the quote
and the number signs that end it. -/
def rawFrom? (signs : List Char) (read : List Char) : List Char → Option (List Char × List Char)
  | [] => none
  | c :: rest =>
    if c = '"' ∧ signs.isPrefixOf rest then some (read.reverse, rest.drop signs.length)
    else rawFrom? signs (c :: read) rest

/-- A raw text after its letter, and what follows it. -/
def raw? (text : List Char) : Option (List Char × List Char) :=
  let signs := text.takeWhile (· == '#')
  match text.drop signs.length with
  | '"' :: rest => rawFrom? signs [] rest
  | _ => none

/-- A text of one character after its quote, and what follows it. -/
def character? : List Char → Option (Char × List Char)
  | '\\' :: rest => do
    let (c, taken) ← escape? rest
    match rest.drop taken with
    | '\x27' :: rest => return (c, rest)
    | _ => none
  | c :: '\x27' :: rest => if c = '\x27' then none else some (c, rest)
  | _ => none

/-! ## Whole texts -/

/-- The first token of a text that starts with one, and what follows it. -/
def next? : List Char → Option (Token × List Char)
  | [] => none
  | '"' :: rest => (textFrom? [] rest).map fun (content, rest) => (.text content, rest)
  | '\x27' :: rest => (character? rest).map fun (c, rest) => (.text [c], rest)
  | 'r' :: '"' :: rest => (raw? ('"' :: rest)).map fun (content, rest) => (.text content, rest)
  | 'r' :: '#' :: rest => (raw? ('#' :: rest)).map fun (content, rest) => (.text content, rest)
  | c :: rest =>
    match punctuation? c with
    | some token => some (token, rest)
    | none =>
      match (c :: rest).takeWhile isWordChar with
      | [] => none
      | word => some (.word word, (c :: rest).dropWhile isWordChar)

/-- The tokens of a text, if it can be cut. -/
def tokens? (text : List Char) : Option (List Token) :=
  match spacing.drop? text with
  | none => none
  | some [] => some []
  | some ready =>
    match next? ready with
    | none => none
    | some (token, rest) =>
      if rest.length < text.length then (tokens? rest).map (token :: ·) else none
termination_by text.length

end DirectoryLookup.Ron
