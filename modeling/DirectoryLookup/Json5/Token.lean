import DirectoryLookup.Json.Text
import DirectoryLookup.Text.CodePoint
import DirectoryLookup.Text.Comment

/-!
# JSON5 tokens

A JSON5 text is cut into punctuation, texts between quotes of either kind with their escapes
resolved, and words, which are runs of any other characters. Between tokens there may be spaces and
comments.
-/

namespace DirectoryLookup.Json5

open Number (natOfBase?)

/-- A token of a text. -/
inductive Token
  | openBrace
  | closeBrace
  | openBracket
  | closeBracket
  | comma
  | colon
  | text (content : List Char)
  | word (written : List Char)
  deriving DecidableEq, Repr

/-! ## Characters -/

/-- The characters that end a line. -/
def endsLine (c : Char) : Bool :=
  c == '\n' || c == '\r' || c == '\u2028' || c == '\u2029'

/-- The characters between tokens. -/
def isSpace (c : Char) : Bool :=
  let n := c.toNat
  (0x09 ≤ n && n ≤ 0x0D) || n == 0x20 || n == 0xA0 || n == 0xFEFF || n == 0x1680 ||
    (0x2000 ≤ n && n ≤ 0x200A) || n == 0x2028 || n == 0x2029 || n == 0x202F || n == 0x205F ||
    n == 0x3000

/-- What may stand between tokens. -/
def spacing : Text.Spacing :=
  { isSpace := isSpace, endsLine := endsLine, nested := false }

/-- The token that a character makes by itself. -/
def punctuation? : Char → Option Token
  | '\x7b' => some .openBrace
  | '\x7d' => some .closeBrace
  | '[' => some .openBracket
  | ']' => some .closeBracket
  | ',' => some .comma
  | ':' => some .colon
  | _ => none

/-- The quotes around texts. -/
def isQuote (c : Char) : Bool :=
  c == '"' || c == '\x27'

/-- The characters of words. -/
def isWordChar (c : Char) : Bool :=
  !isSpace c && (punctuation? c).isNone && !isQuote c && c != '/'

/-! ## Texts -/

/-- The character that a backslash and another character stand for. -/
def escaped? (letter : Char) : Option Char :=
  match letter with
  | 'b' => some '\x08'
  | 'f' => some '\x0c'
  | 'n' => some '\n'
  | 'r' => some '\r'
  | 't' => some '\t'
  | 'v' => some '\x0b'
  | '0' => some '\x00'
  | c => if c.isDigit || c == 'x' || c == 'u' then none else some c

/-- The rest of a text, after characters read, the last one first, and what follows its quote. A
backslash at the end of a line joins the lines. Two escapes may make a surrogate pair. -/
def textFrom? (quote : Char) (read : List Char) : List Char → Option (List Char × List Char)
  | [] => none
  | '\\' :: '\r' :: '\n' :: rest => textFrom? quote read rest
  | '\\' :: 'x' :: a :: b :: rest =>
    match (natOfBase? 16 [a, b]).bind Text.charOf? with
    | some c => textFrom? quote (c :: read) rest
    | none => none
  | '\\' :: 'u' :: a :: b :: c :: d :: rest =>
    match natOfBase? 16 [a, b, c, d] with
    | none => none
    | some n =>
      if Json.isHighSurrogate n then
        match rest with
        | '\\' :: 'u' :: a :: b :: c :: d :: rest =>
          match (natOfBase? 16 [a, b, c, d]).filter Json.isLowSurrogate with
          | some low => textFrom? quote (Json.ofSurrogates n low :: read) rest
          | none => none
        | _ => none
      else
        match Text.charOf? n with
        | some c => textFrom? quote (c :: read) rest
        | none => none
  | '\\' :: letter :: rest =>
    if endsLine letter then textFrom? quote read rest
    else
      match escaped? letter with
      | some c => textFrom? quote (c :: read) rest
      | none => none
  | c :: rest =>
    if c = quote then some (read.reverse, rest)
    else if endsLine c ∨ c = '\\' then none
    else textFrom? quote (c :: read) rest

/-! ## Whole texts -/

/-- The first token of a text that starts with one, and what follows it. -/
def next? : List Char → Option (Token × List Char)
  | [] => none
  | c :: rest =>
    match punctuation? c with
    | some token => some (token, rest)
    | none =>
      if isQuote c then (textFrom? c [] rest).map fun (content, rest) => (.text content, rest)
      else
        match (c :: rest).takeWhile isWordChar with
        | [] => none
        | word => some (.word word, (c :: rest).dropWhile isWordChar)

/-- The tokens of a text, if it can be cut. -/
def tokens? (text : List Char) : Option (List Token) :=
  match spacing.drop? text with
  | none => none
  | some [] => some []
  | some ready =>
    match next? ready with
    | none => none
    | some (token, rest) =>
      if rest.length < text.length then (tokens? rest).map (token :: ·) else none
termination_by text.length

end DirectoryLookup.Json5
