import DirectoryLookup.Number.Double

/-!
# The shortest text of a double

A double is written with the fewest decimal digits that are read back as the same number, and of
the numbers with that many digits with the one nearest to it; a tie goes up. The digits stand in
their places, without an exponent.

Numbers with few digits are those on a coarse grid of powers of ten, so the search goes from
coarse grids to fine ones.
-/

namespace DirectoryLookup.Number.Double

/-- The numbers that round to a double, in quarters of a unit: the least, the greatest, and
whether these two are among them. -/
structure Basin where
  low : Nat
  high : Nat
  closed : Bool

/-- The basin of a positive number of units. Below a power of two the neighbour is only half as
far, unless both are as near as neighbours can be. -/
def basin (units : Nat) : Basin :=
  let step := spacing units
  let below := if units = Nat.pow 2 units.log2 ∧ 1 < step then step else 2 * step
  { low := 4 * units - below
    high := 4 * units + 2 * step
    closed := (units / step) % 2 == 0 }

/-- Whether a number is read as the double. Both bounds are taken `scale` times. -/
def Basin.holds (b : Basin) (scale n : Nat) : Bool :=
  if b.closed then b.low * scale ≤ n && n ≤ b.high * scale
  else b.low * scale < n && n < b.high * scale

/-- The multiple of `10 ^ exponent` nearest to a double, if any is read as it. -/
def onGrid? (units : Nat) (exponent : Int) : Option Nat :=
  let b := basin units
  let scale := Nat.pow 10 (-exponent).toNat
  let mesh := 4 * unitsPerOne * Nat.pow 10 exponent.toNat
  let exact := 4 * units * scale
  let below := exact / mesh
  match b.holds scale (below * mesh), b.holds scale ((below + 1) * mesh) with
  | true, true =>
    if exact - below * mesh < (below + 1) * mesh - exact then some below else some (below + 1)
  | true, false => some below
  | false, true => some (below + 1)
  | false, false => none

/-- The shortest digits of a positive number of units, with the exponent of the last. -/
def shortest? (units : Nat) : Option (Nat × Int) :=
  let top := (digitsOf (units / unitsPerOne)).length
  (List.range (top + Decimal.exponentBound)).findSome? fun (i : Nat) =>
    let exponent := (top : Int) - i
    (onGrid? units exponent).map (·, exponent)

/-- The digits of `n * 10 ^ exponent` in their places. -/
def positional (n : Nat) (exponent : Int) : List Char :=
  match exponent with
  | .ofNat e => digitsOf (n * Nat.pow 10 e)
  | .negSucc e =>
    let digits := digitsOf n
    let padded := List.replicate (e + 2 - digits.length) '0' ++ digits
    let whole := padded.length - (e + 1)
    padded.take whole ++ '.' :: padded.drop whole

/-- The text of a magnitude. -/
def magnitudeText (units : Nat) : List Char :=
  match shortest? units with
  | some (n, exponent) => positional n exponent
  | none => ['0']

/-- The text of a double. -/
def text : Double → List Char
  | finite negative units => (if negative then ['-'] else []) ++ magnitudeText units
  | infinite negative => (if negative then ['-'] else []) ++ "inf".toList
  | nan => "NaN".toList

end DirectoryLookup.Number.Double
