import DirectoryLookup.Number.Digits

/-!
# Text in JSON strings

Writing escapes the quote, the backslash and the characters below U+0020, and nothing else.
Reading understands every escape of JSON and refuses half of a surrogate pair.

Main statement: `decode_encode`, reading what was written gives the text back.
-/

namespace DirectoryLookup.Json

open Number (hexDigit hexValue?)

/-! ## Writing -/

/-- What a string has in place of a character. -/
def encodeChar : Char → List Char
  | '"' => ['\\', '"']
  | '\\' => ['\\', '\\']
  | '\x08' => ['\\', 'b']
  | '\x0c' => ['\\', 'f']
  | '\n' => ['\\', 'n']
  | '\r' => ['\\', 'r']
  | '\t' => ['\\', 't']
  | c =>
    if c.toNat < 0x20 then
      ['\\', 'u', '0', '0', hexDigit (c.toNat / 16), hexDigit (c.toNat % 16)]
    else [c]

/-- The text as it is written between quotes. -/
def encode (text : List Char) : List Char :=
  text.flatMap encodeChar

/-! ## Reading -/

/-- The number that four hexadecimal digits stand for. -/
def hexValue4? (a b c d : Char) : Option Nat := do
  let a ← hexValue? a
  let b ← hexValue? b
  let c ← hexValue? c
  let d ← hexValue? d
  return ((a * 16 + b) * 16 + c) * 16 + d

/-- The character that a one-letter escape stands for. -/
def shortEscape? : Char → Option Char
  | '"' => some '"'
  | '\\' => some '\\'
  | '/' => some '/'
  | 'b' => some '\x08'
  | 'f' => some '\x0c'
  | 'n' => some '\n'
  | 'r' => some '\r'
  | 't' => some '\t'
  | _ => none

/-- The first half of a surrogate pair. -/
def isHighSurrogate (n : Nat) : Bool :=
  0xD800 ≤ n && n ≤ 0xDBFF

/-- The second half of a surrogate pair. -/
def isLowSurrogate (n : Nat) : Bool :=
  0xDC00 ≤ n && n ≤ 0xDFFF

/-- The character that a surrogate pair stands for. -/
def ofSurrogates (high low : Nat) : Char :=
  Char.ofNat (0x10000 + (high - 0xD800) * 0x400 + (low - 0xDC00))

/-- The text that stands between quotes as written, unless an escape in it has no meaning. -/
def decode : List Char → Option (List Char)
  | [] => some []
  | '\\' :: 'u' :: a :: b :: c :: d :: s =>
    match hexValue4? a b c d with
    | none => none
    | some n =>
      if isHighSurrogate n then
        match s with
        | '\\' :: 'u' :: a :: b :: c :: d :: s =>
          match hexValue4? a b c d with
          | none => none
          | some m => if isLowSurrogate m then (decode s).map (ofSurrogates n m :: ·) else none
        | _ => none
      else if isLowSurrogate n then none
      else (decode s).map (Char.ofNat n :: ·)
  | '\\' :: e :: s =>
    match shortEscape? e with
    | none => none
    | some c => (decode s).map (c :: ·)
  | ['\\'] => none
  | c :: s => (decode s).map (c :: ·)

/-! ## Laws -/

@[simp] theorem encode_cons (c : Char) (s : List Char) :
    encode (c :: s) = encodeChar c ++ encode s := by
  simp [encode]

/-- A control character is read back from its hexadecimal escape. -/
theorem hexValue4?_control :
    ∀ n < 0x20, hexValue4? '0' '0' (hexDigit (n / 16)) (hexDigit (n % 16)) = some n := by
  decide

theorem decode_encodeChar_append (c : Char) (s : List Char) :
    decode (encodeChar c ++ s) = (decode s).map (c :: ·) := by
  unfold encodeChar
  split
  case h_8 _ hc _ _ _ _ _ =>
    split
    · next hlt =>
      have h1 : isHighSurrogate c.toNat = false := by
        simp [isHighSurrogate]; omega
      have h2 : isLowSurrogate c.toNat = false := by
        simp [isLowSurrogate]; omega
      simp [decode, hexValue4?_control _ hlt, h1, h2]
    · have hc : c ≠ '\\' := hc
      simp [decode, hc]
  all_goals rfl

/-- **Reading what was written gives the text back.** -/
theorem decode_encode (text : List Char) : decode (encode text) = some text := by
  induction text with
  | nil => rfl
  | cons c s ih => simp [decode_encodeChar_append, ih]

end DirectoryLookup.Json
