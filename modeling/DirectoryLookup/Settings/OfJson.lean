import DirectoryLookup.Json.Reader
import DirectoryLookup.Settings.Raw

/-!
# Raw settings in JSON

A JSON text gives settings if it is an object, not nested too deeply, and all its strings and
numbers have a meaning. Integers that fit into 64 bits, with a sign or without, are kept exactly.
Any other number is taken as a double, computed in two roundings: its digits as an integer, as many
as fit into 64 bits, then scaled by a power of ten.
-/

namespace DirectoryLookup.Settings

open Number
open Json (Node decode)

/-! ## Numbers -/

/-- The digits of a number that are kept after those kept before, and how many are not. The first
that makes the integer too big is dropped, with all that follow it. -/
def significant (kept : Nat) : List Char → Nat × Nat
  | [] => (kept, 0)
  | c :: s =>
    let n := kept * 10 + digitValue c
    if n ≤ numberMax then significant n s else (kept, s.length + 1)

/-- The powers of ten that are doubles go up to this exponent. -/
def powerMax : Nat :=
  308

/-- A double divided by a power of ten, in steps if the exponent is large. -/
def divideInSteps (x : Double) : Nat → Nat → Double
  | 0, _ => x
  | steps + 1, exponent =>
    if x.isZero then x
    else if exponent ≤ powerMax then x.div (.ofNat (Nat.pow 10 exponent))
    else divideInSteps (x.div (.ofNat (Nat.pow 10 powerMax))) steps (exponent - powerMax)

/-- An integer of 64 bits scaled by a power of ten, unless the result is out of range. Division in
more than three steps leaves zero of any such integer. -/
def scale? (n : Nat) (exponent : Int) : Option Double :=
  match exponent with
  | .ofNat e =>
    if n = 0 then some (.ofNat 0)
    else if powerMax < e then none
    else match (Double.ofNat n).mul (.ofNat (Nat.pow 10 e)) with
      | .finite negative units => some (.finite negative units)
      | _ => none
  | .negSucc e => some (divideInSteps (.ofNat n) 4 (e + 1))

/-- The raw value of a number. -/
def Raw.ofNumber? (text : List Char) : Option Raw := do
  let (negative, s) := unsign text
  let (whole, fraction, rest) := Decimal.pieces s
  let (n, dropped) := significant 0 whole
  if dropped = 0 ∧ fraction = [] ∧ rest = [] ∧ (negative → 0 < n ∧ n ≤ Nat.pow 2 63) then
    return .integer (if negative then -(n : Int) else n)
  let (m, cut) := significant n fraction
  let written ← Decimal.exponentOf? rest
  let x ← scale? m (written + dropped - (fraction.length - cut : Nat))
  return .float (if negative then x.neg else x)

/-! ## Values -/

/-- The deepest nesting of arrays and objects that is read. -/
def depthLimit : Nat :=
  127

mutual

/-- The raw value of a tree, with `levels` left for arrays and objects in it. -/
def Raw.ofNode? (levels : Nat) (node : Node) : Option Raw :=
  match node with
  | .null => some .null
  | .bool b => some (.bool b)
  | .number digits => Raw.ofNumber? digits
  | .string raw => (decode raw).map fun s => .text (String.ofList s)
  | .array items =>
    if levels = 0 then none else (Raw.ofNodes? (levels - 1) items).map .list
  | .object members =>
    if levels = 0 then none
    else (Raw.ofMembers? (levels - 1) members).map fun es => .table (Entries.ofList es)
termination_by structural node

/-- The raw values of several trees. -/
def Raw.ofNodes? (levels : Nat) (nodes : List Node) : Option (List Raw) :=
  match nodes with
  | [] => some []
  | n :: ns =>
    match Raw.ofNode? levels n with
    | none => none
    | some v => (Raw.ofNodes? levels ns).map (v :: ·)
termination_by structural nodes

/-- The keys and raw values of several members. -/
def Raw.ofMembers? (levels : Nat) (members : List (List Char × Node)) :
    Option (List (String × Raw)) :=
  match members with
  | [] => some []
  | (key, n) :: ms =>
    match decode key, Raw.ofNode? levels n with
    | some key, some v => (Raw.ofMembers? levels ms).map ((String.ofList key, v) :: ·)
    | _, _ => none
termination_by structural members

end

/-- The settings in a JSON text. -/
def ofJson? (text : List Char) : Option Table := do
  match ← Raw.ofNode? depthLimit (← Node.read? text) with
  | .table t => some t
  | _ => none

end DirectoryLookup.Settings
