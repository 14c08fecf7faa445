/-!
# Digits

Numbers as runs of the digits `0` to `9`, and as runs of the digits of bases up to sixteen.
-/

namespace DirectoryLookup.Number

/-- The value of a digit. -/
def digitValue (c : Char) : Nat :=
  c.toNat - '0'.toNat

/-- The number that a run of digits writes; zero for the empty run. -/
def natOf (digits : List Char) : Nat :=
  digits.foldl (fun n c => n * 10 + digitValue c) 0

/-- The number that a text writes, if it is a digit or several. -/
def natOf? (text : List Char) : Option Nat :=
  if text ≠ [] ∧ text.all Char.isDigit then some (natOf text) else none

/-- The digits of a number, without leading zeros. -/
def digitsOf (n : Nat) : List Char :=
  Nat.toDigits 10 n

/-- A text without the sign in front, and whether the sign is a minus. -/
def unsign : List Char → Bool × List Char
  | '-' :: s => (true, s)
  | '+' :: s => (false, s)
  | s => (false, s)

/-- The integer that a text writes: digits, with or without a sign in front. -/
def intOf? (text : List Char) : Option Int :=
  let (negative, digits) := unsign text
  (natOf? digits).map fun n => if negative then -(n : Int) else (n : Int)

/-- The integers of 64 bits. -/
def isInt64 (n : Int) : Bool :=
  -(Nat.pow 2 63 : Int) ≤ n && n < (Nat.pow 2 63 : Int)

/-! ## Digits of other bases -/

/-- The digit for a number below sixteen, in lower case. -/
def hexDigit (n : Nat) : Char :=
  if n < 10 then Char.ofNat ('0'.toNat + n) else Char.ofNat ('a'.toNat + (n - 10))

/-- The number that a hexadecimal digit of either case stands for. -/
def hexValue? (c : Char) : Option Nat :=
  if '0' ≤ c ∧ c ≤ '9' then some (c.toNat - '0'.toNat)
  else if 'a' ≤ c ∧ c ≤ 'f' then some (c.toNat - 'a'.toNat + 10)
  else if 'A' ≤ c ∧ c ≤ 'F' then some (c.toNat - 'A'.toNat + 10)
  else none

/-- A digit of a base of at most sixteen. -/
def isDigitOf (base : Nat) (c : Char) : Bool :=
  match hexValue? c with
  | some d => d < base
  | none => false

/-- The number that digits of a base write. -/
def natOfBase (base : Nat) (digits : List Char) : Nat :=
  digits.foldl (fun n c => n * base + (hexValue? c).getD 0) 0

/-- The number that a text writes in a base, if it is a digit or several. -/
def natOfBase? (base : Nat) (text : List Char) : Option Nat :=
  if text ≠ [] ∧ text.all (isDigitOf base) then some (natOfBase base text) else none

end DirectoryLookup.Number
