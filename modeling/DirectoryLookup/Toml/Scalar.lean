import DirectoryLookup.Settings.Raw

/-!
# Bare values in TOML

A value without quotes is a yes or no, a number, or a date or time. Numbers may have underscores
between digits. Dates and times have no kind of their own among settings; each stands for its text
in a fixed form, with `T` between date and time, and without zeros at the end of a fraction.
-/

namespace DirectoryLookup.Toml

open Number
open Settings (Raw)

/-! ## Integers -/

/-- The digits of a text without the underscores, each of which must stand between two digits. -/
def ungroup? (isDigit : Char → Bool) : List Char → Option (List Char)
  | [] => none
  | [c] => if isDigit c then some [c] else none
  | c :: '_' :: s => if isDigit c then (ungroup? isDigit s).map (c :: ·) else none
  | c :: s => if isDigit c then (ungroup? isDigit s).map (c :: ·) else none

/-- Decimal digits without a superfluous zero in front. -/
def wholeDigits? (text : List Char) : Option (List Char) := do
  let digits ← ungroup? Char.isDigit text
  if digits.head? = some '0' ∧ digits ≠ ['0'] then none else some digits

/-- An integer: with a base in front, or decimal with or without a sign. -/
def integer? (text : List Char) : Option Int :=
  match text with
  | '0' :: 'x' :: s => (ungroup? (isDigitOf 16) s).map fun ds => (natOfBase 16 ds : Int)
  | '0' :: 'o' :: s => (ungroup? (isDigitOf 8) s).map fun ds => (natOfBase 8 ds : Int)
  | '0' :: 'b' :: s => (ungroup? (isDigitOf 2) s).map fun ds => (natOfBase 2 ds : Int)
  | s =>
    let (negative, s) := unsign s
    (wholeDigits? s).map fun ds => if negative then -(natOf ds : Int) else (natOf ds : Int)

/-! ## Fractions -/

/-- The exponent of a number: none, or a letter `e`, a sign or none, and digits. -/
def exponent? : List Char → Option Int
  | [] => some 0
  | c :: s =>
    if c = 'e' ∨ c = 'E' then
      let (negative, s) := unsign s
      (ungroup? Char.isDigit s).map fun ds =>
        if negative then -(natOf ds : Int) else (natOf ds : Int)
    else none

/-- The characters of a run of grouped digits. -/
def isGroupChar (c : Char) : Bool :=
  c.isDigit || c == '_'

/-- A fraction: digits, then a point and digits or an exponent or both; or an infinity, or no
number at all. One too great to be a double is refused. -/
def float? (text : List Char) : Option Double := do
  let (negative, s) := unsign text
  if s = "inf".toList then return .infinite negative
  if s = "nan".toList then return .nan
  let whole ← wholeDigits? (s.takeWhile isGroupChar)
  let rest := s.dropWhile isGroupChar
  let (fraction, rest) ← match rest with
    | '.' :: s =>
      (ungroup? Char.isDigit (s.takeWhile isGroupChar)).map (·, s.dropWhile isGroupChar)
    | s => some ([], s)
  let e ← exponent? rest
  let x := Decimal.toDouble
    { negative := negative, digits := natOf (whole ++ fraction), exponent := e - fraction.length }
  match x with
  | .infinite _ => none
  | _ => return x

/-! ## Dates and times -/

/-- A number of two digits. -/
def twoDigits? (a b : Char) : Option Nat :=
  natOf? [a, b]

/-- The days of a month. -/
def daysIn (year month : Nat) : Nat :=
  if month = 2 then
    if year % 4 = 0 ∧ (year % 100 ≠ 0 ∨ year % 400 = 0) then 29 else 28
  else if month ∈ [4, 6, 9, 11] then 30
  else 31

/-- A date at the start of a text, with the rest of the text. -/
def date? : List Char → Option (List Char × List Char)
  | a :: b :: c :: d :: '-' :: e :: f :: '-' :: g :: h :: s => do
    let year ← natOf? [a, b, c, d]
    let month ← twoDigits? e f
    let day ← twoDigits? g h
    if 1 ≤ month ∧ month ≤ 12 ∧ 1 ≤ day ∧ day ≤ daysIn year month then
      some ([a, b, c, d, '-', e, f, '-', g, h], s)
    else none
  | _ => none

/-- A text without the zeros at its end. -/
def dropZeros (digits : List Char) : List Char :=
  (digits.reverse.dropWhile (· == '0')).reverse

/-- The fraction of a second at the start of a text, if there is one, with the rest of the text.
Nine digits of it count. -/
def secondFraction? : List Char → Option (List Char × List Char)
  | '.' :: s =>
    let digits := s.takeWhile Char.isDigit
    if digits = [] then none
    else
      let kept := dropZeros (digits.take 9)
      some ('.' :: (if kept = [] then ['0'] else kept), s.dropWhile Char.isDigit)
  | s => some ([], s)

/-- A time of day at the start of a text, with the rest of the text. The seconds may be missing. -/
def time? : List Char → Option (List Char × List Char)
  | a :: b :: ':' :: c :: d :: s => do
    let hour ← twoDigits? a b
    let minute ← twoDigits? c d
    if 23 < hour ∨ 59 < minute then none
    else match s with
      | ':' :: e :: f :: s =>
        let second ← twoDigits? e f
        if 60 < second then none
        else
          let (fraction, s) ← secondFraction? s
          some (a :: b :: ':' :: c :: d :: ':' :: e :: f :: fraction, s)
      | s => some ([a, b, ':', c, d], s)
  | _ => none

/-- The offset of a time from universal time, if there is one; nothing may follow it. -/
def offset? : List Char → Option (List Char)
  | [] => some []
  | ['Z'] | ['z'] => some ['Z']
  | [sign, a, b, ':', c, d] => do
    let hour ← twoDigits? a b
    let minute ← twoDigits? c d
    if (sign ≠ '+' ∧ sign ≠ '-') ∨ 23 < hour ∨ 59 < minute then none
    else some ((if hour = 0 ∧ minute = 0 then '+' else sign) :: [a, b, ':', c, d])
  | _ => none

/-- A date, a time, or a date with a time and perhaps an offset. -/
def dateTime? (text : List Char) : Option (List Char) :=
  match date? text with
  | some (date, []) => some date
  | some (date, c :: s) =>
    if c = 'T' ∨ c = 't' ∨ c = ' ' then do
      let (time, s) ← time? s
      let offset ← offset? s
      some (date ++ 'T' :: time ++ offset)
    else none
  | none =>
    match time? text with
    | some (time, []) => some time
    | _ => none

/-- Whether a text is a date alone, so that a time may follow after a space. -/
def isDate (text : List Char) : Bool :=
  match date? text with
  | some (_, []) => true
  | _ => false

/-! ## All together -/

/-- The value of a text without quotes. -/
def scalar? (text : List Char) : Option Raw :=
  if text = "true".toList then some (.bool true)
  else if text = "false".toList then some (.bool false)
  else match integer? text with
    | some n => if isInt64 n then some (.integer n) else none
    | none =>
      match float? text with
      | some x => some (.float x)
      | none => (dateTime? text).map fun s => .text (String.ofList s)

end DirectoryLookup.Toml
