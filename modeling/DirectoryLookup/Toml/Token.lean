import DirectoryLookup.Number.Digits
import DirectoryLookup.Text.ByteOrder
import DirectoryLookup.Text.CodePoint

/-!
# TOML tokens

A TOML document is first cut into tokens, which does not depend on where they stand: punctuation,
quoted texts with their escapes resolved, line breaks, blanks, and words, which are runs of any
other characters. A comment counts as no token at all, nor does a byte order mark in front.

The cutter takes one character at a time. It refuses control characters, escapes without a
meaning, and texts that do not end.
-/

namespace DirectoryLookup.Toml

open Number (hexValue?)

/-- A token of a document. -/
inductive Token
  | newline
  /-- A run of spaces and tabs, and whether it is a single space. -/
  | blank (single : Bool)
  | dot
  | equals
  | comma
  | openBracket
  | closeBracket
  | openBrace
  | closeBrace
  /-- A quoted text, and whether it may extend over lines. -/
  | text (block : Bool) (content : List Char)
  | word (read : List Char)
  deriving DecidableEq, Repr

/-! ## Characters -/

/-- Control characters may stand in no comment and no text; the tab is no such character. -/
def isControl (c : Char) : Bool :=
  (c.toNat < 0x20 && c != '\t') || c.toNat == 0x7F

/-- The token that a character makes by itself. -/
def punctuation? : Char → Option Token
  | '.' => some .dot
  | '=' => some .equals
  | ',' => some .comma
  | '[' => some .openBracket
  | ']' => some .closeBracket
  | '{' => some .openBrace
  | '}' => some .closeBrace
  | _ => none

/-- The characters at which a word ends. -/
def endsWord (c : Char) : Bool :=
  (punctuation? c).isSome || c == ' ' || c == '\t' || c == '#' || c == '\r' || c == '\n'

/-- The character that a one-letter escape stands for. -/
def shortEscape? : Char → Option Char
  | 'b' => some '\x08'
  | 't' => some '\t'
  | 'n' => some '\n'
  | 'f' => some '\x0c'
  | 'r' => some '\r'
  | 'e' => some '\x1b'
  | '"' => some '"'
  | '\\' => some '\\'
  | _ => none

/-- How many hexadecimal digits follow the letter of an escape. -/
def hexCount? : Char → Option Nat
  | 'x' => some 2
  | 'u' => some 4
  | 'U' => some 8
  | _ => none

/-! ## The cutter -/

/-- The two kinds of quotes. Escapes have a meaning only between double quotes. -/
inductive Quote
  | double
  | single
  deriving DecidableEq, Repr

/-- The character of a quote. -/
def Quote.char : Quote → Char
  | double => '"'
  | single => '\x27'

/-- Where the cutter stands inside an escape. -/
inductive Escape
  /-- After the backslash. -/
  | begun
  /-- Before `left` hexadecimal digits, after those that make `value`. -/
  | hex (left value : Nat)
  deriving DecidableEq, Repr

/-- Where the cutter stands inside a text that may extend over lines. -/
inductive BlockPlace
  /-- Before the first character; a line break here does not count. -/
  | start
  | startCarriage
  | inside
  /-- After one quote or more that may end the text. -/
  | quotes (count : Nat)
  | escape (e : Escape)
  /-- After a carriage return, which needs a line feed. -/
  | carriage
  /-- After a backslash and blanks, which make no part of the text up to the next line's first
  character; whether the line break has come. -/
  | skipping (broken : Bool)
  | skippingCarriage
  deriving DecidableEq, Repr

/-- What the cutter is in the middle of. Characters read are held with the last one first. -/
inductive Mode
  | between
  | word (read : List Char)
  | blank (single : Bool)
  | comment
  /-- After a carriage return outside texts, which needs a line feed. -/
  | carriage
  /-- After one quote or two, with nothing between. -/
  | opening (quote : Quote) (two : Bool)
  | line (quote : Quote) (escape : Option Escape) (read : List Char)
  | block (quote : Quote) (place : BlockPlace) (read : List Char)
  deriving Repr

/-- A cutter between two characters, and the tokens so far, the last one first. -/
structure Cutter where
  mode : Mode
  tokens : List Token

namespace Cutter

/-- The cutter in a new mode, with the tokens it has. -/
def goTo (k : Cutter) (mode : Mode) : Option Cutter :=
  some { k with mode := mode }

/-- The cutter between tokens, after one more. -/
def emit (k : Cutter) (token : Token) : Cutter :=
  { mode := .between, tokens := token :: k.tokens }

/-- A character between tokens. -/
def begin (k : Cutter) (c : Char) : Option Cutter :=
  match punctuation? c with
  | some token => some (k.emit token)
  | none =>
    if c = '\n' then some (k.emit .newline)
    else if c = '\r' then k.goTo .carriage
    else if c = ' ' then k.goTo (.blank true)
    else if c = '\t' then k.goTo (.blank false)
    else if c = '#' then k.goTo .comment
    else if c = '"' then k.goTo (.opening .double false)
    else if c = '\x27' then k.goTo (.opening .single false)
    else k.goTo (.word [c])

/-- One character of an escape: the character that is now complete, or the rest of the escape. -/
def escapeStep (e : Escape) (c : Char) : Option (Char ⊕ Escape) :=
  match e with
  | .begun =>
    match shortEscape? c, hexCount? c with
    | some d, _ => some (.inl d)
    | none, some n => some (.inr (.hex n 0))
    | none, none => none
  | .hex left value =>
    match hexValue? c with
    | none => none
    | some d =>
      let value := value * 16 + d
      if left ≤ 1 then (Text.charOf? value).map .inl else some (.inr (.hex (left - 1) value))

/-- A character of a text on one line. -/
def lineStep (k : Cutter) (q : Quote) (escape : Option Escape) (read : List Char) (c : Char) :
    Option Cutter :=
  match escape with
  | some e =>
    match escapeStep e c with
    | none => none
    | some (.inl d) => k.goTo (.line q none (d :: read))
    | some (.inr e) => k.goTo (.line q (some e) read)
  | none =>
    if c = q.char then some (k.emit (.text false read.reverse))
    else if q = .double ∧ c = '\\' then k.goTo (.line q (some .begun) read)
    else if isControl c then none
    else k.goTo (.line q none (c :: read))

/-- A character inside a text that may extend over lines. -/
def blockInside (k : Cutter) (q : Quote) (read : List Char) (c : Char) : Option Cutter :=
  if c = q.char then k.goTo (.block q (.quotes 1) read)
  else if q = .double ∧ c = '\\' then k.goTo (.block q (.escape .begun) read)
  else if c = '\n' then k.goTo (.block q .inside (c :: read))
  else if c = '\r' then k.goTo (.block q .carriage read)
  else if isControl c then none
  else k.goTo (.block q .inside (c :: read))

/-- A text that ended with `count` quotes: all but three of them belong to it. -/
def closeBlock (k : Cutter) (q : Quote) (count : Nat) (read : List Char) : Cutter :=
  k.emit (.text true (List.replicate (count - 3) q.char ++ read).reverse)

/-- A character of a text that may extend over lines. -/
def blockStep (k : Cutter) (q : Quote) (place : BlockPlace) (read : List Char) (c : Char) :
    Option Cutter :=
  match place with
  | .start =>
    if c = '\n' then k.goTo (.block q .inside read)
    else if c = '\r' then k.goTo (.block q .startCarriage read)
    else k.blockInside q read c
  | .startCarriage => if c = '\n' then k.goTo (.block q .inside read) else none
  | .inside => k.blockInside q read c
  | .quotes count =>
    if c = q.char then
      if count = 4 then some (k.closeBlock q 5 read)
      else k.goTo (.block q (.quotes (count + 1)) read)
    else if 3 ≤ count then (k.closeBlock q count read).begin c
    else k.blockInside q (List.replicate count q.char ++ read) c
  | .escape e =>
    if e = .begun ∧ (c = ' ' ∨ c = '\t') then k.goTo (.block q (.skipping false) read)
    else if e = .begun ∧ c = '\n' then k.goTo (.block q (.skipping true) read)
    else if e = .begun ∧ c = '\r' then k.goTo (.block q .skippingCarriage read)
    else match escapeStep e c with
      | none => none
      | some (.inl d) => k.goTo (.block q .inside (d :: read))
      | some (.inr e) => k.goTo (.block q (.escape e) read)
  | .carriage => if c = '\n' then k.goTo (.block q .inside ('\n' :: '\r' :: read)) else none
  | .skipping broken =>
    if c = ' ' ∨ c = '\t' then k.goTo (.block q place read)
    else if c = '\n' then k.goTo (.block q (.skipping true) read)
    else if c = '\r' then k.goTo (.block q .skippingCarriage read)
    else if broken then k.blockInside q read c
    else none
  | .skippingCarriage => if c = '\n' then k.goTo (.block q (.skipping true) read) else none

/-- One character more. -/
def step (k : Cutter) (c : Char) : Option Cutter :=
  match k.mode with
  | .between => k.begin c
  | .word read =>
    if endsWord c then (k.emit (.word read.reverse)).begin c else k.goTo (.word (c :: read))
  | .blank single =>
    if c = ' ' ∨ c = '\t' then k.goTo (.blank false) else (k.emit (.blank single)).begin c
  | .comment =>
    if c = '\n' then some (k.emit .newline)
    else if c = '\r' then k.goTo .carriage
    else if isControl c then none
    else some k
  | .carriage => if c = '\n' then some (k.emit .newline) else none
  | .opening q two =>
    if c = q.char then
      if two then k.goTo (.block q .start []) else k.goTo (.opening q true)
    else if two then (k.emit (.text false [])).begin c
    else k.lineStep q none [] c
  | .line q escape read => k.lineStep q escape read c
  | .block q place read => k.blockStep q place read c

/-- The cutter at the end of the document, if the document may end here. -/
def finish (k : Cutter) : Option Cutter :=
  match k.mode with
  | .between | .comment => some k
  | .word read => some (k.emit (.word read.reverse))
  | .blank single => some (k.emit (.blank single))
  | .opening _ true => some (k.emit (.text false []))
  | .block q (.quotes count) read => if 3 ≤ count then some (k.closeBlock q count read) else none
  | _ => none

end Cutter

/-- The tokens of a document. -/
def tokens? (document : List Char) : Option (List Token) := do
  let k ← (Text.dropMark document).foldlM Cutter.step { mode := .between, tokens := [] }
  return (← k.finish).tokens.reverse

end DirectoryLookup.Toml
