import DirectoryLookup.Entries
import DirectoryLookup.Number.Shortest

/-!
# Raw settings

Settings come from files and from the environment as raw values of several kinds. A raw value is
converted to the kind that its setting has; a number given as text will do, and so will a yes or
no given as a number.

Tables are laid over one another key by key: where both have a table, the two are merged, and
everywhere else the upper value stands.
-/

namespace DirectoryLookup.Settings

open Number

/-- A setting's value before it is converted. -/
inductive Raw
  | null
  | bool (b : Bool)
  | integer (n : Int)
  | float (x : Double)
  | text (s : String)
  | list (items : List Raw)
  /-- Values by key, each key once. -/
  | table (entries : List (String × Raw))
  deriving Repr, Inhabited

/-- Raw values by key. -/
abbrev Table := Entries Raw

/-! ## Laying values over one another -/

/-- The entries of a table; none of what is no table, or not there at all. -/
def entriesOf : Option Raw → Table
  | some (.table t) => t
  | _ => []

mutual

/-- The value that results when a value is laid over what was there. -/
def Raw.over (upper : Raw) (lower : Option Raw) : Raw :=
  match upper with
  | .table entries => .table (overlay (entriesOf lower) entries)
  | .null => .null
  | .bool b => .bool b
  | .integer n => .integer n
  | .float x => .float x
  | .text s => .text s
  | .list items => .list items
termination_by structural upper

/-- The table that results when entries are laid over it, one after the other. -/
def overlay (lower : Table) (entries : List (String × Raw)) : Table :=
  match entries with
  | [] => lower
  | (key, value) :: rest =>
    overlay (Entries.put lower key (value.over (Entries.get? lower key))) rest
termination_by structural entries

end

/-! ## Conversion to text -/

/-- The text of a value that has one. -/
def Raw.text? : Raw → Option String
  | .text s => some s
  | .bool b => some (if b then "true" else "false")
  | .integer n => some (toString n)
  | .float x => some (String.ofList x.text)
  | .null | .list _ | .table _ => none

/-! ## Conversion to numbers and to yes or no -/

/-- The words for yes. -/
def yesWords : List String :=
  ["true", "on", "yes"]

/-- The words for no. -/
def noWords : List String :=
  ["false", "off", "no"]

/-- A word in lower case. -/
def lowerWord (s : String) : String :=
  String.ofList (s.toList.map Char.toLower)

/-- The greatest number that any setting takes. -/
def numberMax : Nat :=
  Nat.pow 2 64 - 1

/-- The number that a text writes: digits, with or without a plus in front. -/
def numberOf? (s : String) : Option Nat :=
  let n := match s.toList with
    | '+' :: digits => natOf? digits
    | digits => natOf? digits
  n.filter (· ≤ numberMax)

/-- The number of a value: an integer that is not negative, a fraction rounded to an integer in
range, a yes or no, or a text for one of them. -/
def Raw.number? : Raw → Option Nat
  | .integer n => if 0 ≤ n then some n.toNat else none
  | .float x => some (x.roundWithin numberMax)
  | .bool b => some b.toNat
  | .text s =>
    if lowerWord s ∈ yesWords then some 1
    else if lowerWord s ∈ noWords then some 0
    else numberOf? s
  | .null | .list _ | .table _ => none

/-- The number of a value, if it fits into sixteen bits. -/
def Raw.uint16? (r : Raw) : Option UInt16 :=
  r.number?.bind fun n => if h : n < UInt16.size then some (UInt16.ofNatLT n h) else none

/-- The number of a value, if it fits into 32 bits. -/
def Raw.uint32? (r : Raw) : Option UInt32 :=
  r.number?.bind fun n => if h : n < UInt32.size then some (UInt32.ofNatLT n h) else none

/-- The number of a value, if it fits into 64 bits. -/
def Raw.uint64? (r : Raw) : Option UInt64 :=
  r.number?.bind fun n => if h : n < UInt64.size then some (UInt64.ofNatLT n h) else none

/-- The yes or no of a value: a number is yes unless it is zero, and a text has to be a word for
one of them, or `1` or `0`. -/
def Raw.bool? : Raw → Option Bool
  | .bool b => some b
  | .integer n => some (n ≠ 0)
  | .float x => some (!x.isZero)
  | .text s =>
    if lowerWord s ∈ "1" :: yesWords then some true
    else if lowerWord s ∈ "0" :: noWords then some false
    else none
  | .null | .list _ | .table _ => none

/-! ## Numbers of a width -/

theorem Raw.number?_natCast (n : Nat) : (Raw.integer n).number? = some n := by
  simp [Raw.number?]

/-- A number that is taken if it fits is the number of what it is taken as. -/
theorem bind_fitting_eq_some_iff {α : Type} {size : Nat} {ofNat : (n : Nat) → n < size → α}
    {toNat : α → Nat} (hlt : ∀ a, toNat a < size) (hto : ∀ n h, toNat (ofNat n h) = n)
    (hof : ∀ a, ofNat (toNat a) (hlt a) = a) {number? : Option Nat} {a : α} :
    (number?.bind fun n => if h : n < size then some (ofNat n h) else none) = some a ↔
      number? = some (toNat a) := by
  simp only [Option.bind_eq_some_iff, Option.dite_none_right_eq_some, Option.some.injEq]
  constructor
  · rintro ⟨n, hn, h, rfl⟩
    rw [hn, hto]
  · exact fun h => ⟨toNat a, h, hlt a, hof a⟩

theorem Raw.uint16?_eq_some_iff {r : Raw} {u : UInt16} :
    r.uint16? = some u ↔ r.number? = some u.toNat :=
  bind_fitting_eq_some_iff UInt16.toNat_lt_size (fun _ _ => rfl) fun u => u.ofNatLT_toNat

theorem Raw.uint32?_eq_some_iff {r : Raw} {u : UInt32} :
    r.uint32? = some u ↔ r.number? = some u.toNat :=
  bind_fitting_eq_some_iff UInt32.toNat_lt_size (fun _ _ => rfl) fun u => u.ofNatLT_toNat

theorem Raw.uint64?_eq_some_iff {r : Raw} {u : UInt64} :
    r.uint64? = some u ↔ r.number? = some u.toNat :=
  bind_fitting_eq_some_iff UInt64.toNat_lt_size (fun _ _ => rfl) fun u => u.ofNatLT_toNat

end DirectoryLookup.Settings
