import DirectoryLookup.Number.Digits

/-!
# Double-precision numbers

Binary floating-point numbers with 53 significant bits. Every finite one is a whole multiple of
the smallest, so it is kept as a sign and a number of such units. Rounding takes an exact ratio to
the nearest number of at most 53 significant bits; a tie goes to the one whose last bit is even.
-/

namespace DirectoryLookup.Number

/-- A double-precision number. -/
inductive Double
  /-- A whole number of units, each `2 ^ -1074`. -/
  | finite (negative : Bool) (units : Nat)
  | infinite (negative : Bool)
  | nan
  deriving DecidableEq, Repr

/-- The quotient of two numbers to the nearest integer; a tie goes to the even one. -/
def roundDiv (num den : Nat) : Nat :=
  let q := num / den
  let r := num % den
  if 2 * r < den then q
  else if den < 2 * r then q + 1
  else if q % 2 = 0 then q else q + 1

namespace Double

/-- The number of units in one. -/
def unitsPerOne : Nat :=
  Nat.pow 2 1074

/-- The first number of units that is out of range. -/
def unitsBound : Nat :=
  Nat.pow 2 2098

/-- The distance between neighbours at a magnitude, which leaves 53 bits above it. -/
def spacing (units : Nat) : Nat :=
  Nat.pow 2 (units.log2 - 52)

/-- The number with this sign and the magnitude nearest to `num / den`. -/
def ofRatio (negative : Bool) (num den : Nat) : Double :=
  let scaled := num * unitsPerOne
  let step := spacing (scaled / den)
  let units := roundDiv scaled (den * step) * step
  if units < unitsBound then finite negative units else infinite negative

/-- The number nearest to an integer. -/
def ofNat (n : Nat) : Double :=
  ofRatio false n 1

/-- The product. Of numbers that are not finite it is not defined, and stands as `nan`. -/
def mul : Double → Double → Double
  | finite s a, finite t b => ofRatio (s != t) (a * b) (unitsPerOne * unitsPerOne)
  | _, _ => nan

/-- The quotient by a number other than zero. Of numbers that are not finite it is not defined,
and stands as `nan`. -/
def div : Double → Double → Double
  | finite s a, finite t b => ofRatio (s != t) a b
  | _, _ => nan

/-- The number with the other sign. -/
def neg : Double → Double
  | finite s a => finite (!s) a
  | infinite s => infinite (!s)
  | nan => nan

/-- Whether the number is zero, of either sign. -/
def isZero : Double → Bool
  | finite _ units => units == 0
  | _ => false

/-- The nearest integer, with a tie going away from zero, as far as it lies between zero and
`bound`; the nearer of the two if it does not, and zero for `nan`. -/
def roundWithin (bound : Nat) : Double → Nat
  | finite false units => min bound ((2 * units + unitsPerOne) / (2 * unitsPerOne))
  | infinite false => bound
  | _ => 0

end Double

/-! ## Decimal numbers -/

/-- A decimal number `digits * 10 ^ exponent` with a sign. -/
structure Decimal where
  negative : Bool
  digits : Nat
  exponent : Int
  deriving DecidableEq, Repr

namespace Decimal

/-- A power of ten beyond which every decimal number with few digits overflows, and below whose
inverse every one vanishes. -/
def exponentBound : Nat :=
  400

/-- The double nearest to a decimal number. Numbers that are far out of range are settled by the
sizes of their exponents. -/
def toDouble (d : Decimal) : Double :=
  if d.digits = 0 then .finite d.negative 0
  else match d.exponent with
    | .ofNat e =>
      if exponentBound < e then .infinite d.negative
      else .ofRatio d.negative (d.digits * Nat.pow 10 e) 1
    | .negSucc e =>
      if (digitsOf d.digits).length + exponentBound < e then .finite d.negative 0
      else .ofRatio d.negative d.digits (Nat.pow 10 (e + 1))

/-- The text of a number taken apart: digits before the point, digits after it, and what follows
them. -/
def pieces (text : List Char) : List Char × List Char × List Char :=
  let whole := text.takeWhile Char.isDigit
  match text.dropWhile Char.isDigit with
  | '.' :: s => (whole, s.takeWhile Char.isDigit, s.dropWhile Char.isDigit)
  | s => (whole, [], s)

/-- The exponent that a text writes: none, or a letter `e` and an integer. -/
def exponentOf? : List Char → Option Int
  | [] => some 0
  | c :: s => if c = 'e' ∨ c = 'E' then intOf? s else none

/-- The decimal number that a text without a sign writes: digits, with a point anywhere among
them or beside them, and an exponent or none. -/
def ofText? (negative : Bool) (text : List Char) : Option Decimal :=
  let (whole, fraction, rest) := pieces text
  if whole = [] ∧ fraction = [] then none
  else (exponentOf? rest).map fun e =>
    { negative := negative
      digits := natOf (whole ++ fraction)
      exponent := e - fraction.length }

end Decimal

/-- The double that a text writes: a decimal number, an infinity or `nan`, with or without a sign
in front, letters in either case. -/
def Double.ofText? (text : List Char) : Option Double :=
  let (negative, s) := unsign text
  let word := s.map Char.toLower
  if word = "inf".toList ∨ word = "infinity".toList then some (.infinite negative)
  else if word = "nan".toList then some .nan
  else (Decimal.ofText? negative s).map Decimal.toDouble

end DirectoryLookup.Number
