import DirectoryLookup.Number.Digits

/-!
# Command-line arguments

Arguments are options with a value, switches without one, and query terms, in any order. An option
takes the value that is attached to it, or the next argument unless that is an option or switch
itself. After `--` all arguments are terms.

A value that came as an argument of its own is looked at only when the next argument that is
understood, or the end, shows that it is complete. So an argument that is not understood is
reported before a bad value in front of it, while an attached value is looked at right away.
-/

namespace DirectoryLookup

/-- What the command line asks for. -/
structure Arguments where
  debug : Bool := false
  json : Bool := false
  printFilter : Bool := false
  host : Option String := none
  port : Option UInt16 := none
  base : Option String := none
  limit : Option UInt32 := none
  filterJson : Option String := none
  terms : List String := []
  deriving DecidableEq, Repr, Inhabited

namespace Arguments

/-- Why a command line is not followed. -/
inductive Error
  /-- There is no such option or switch. -/
  | unknown
  /-- An option has no value. -/
  | noValue
  /-- A value is not of the kind its option needs. -/
  | badValue
  /-- Arguments exclude one another, or one is there twice. -/
  | conflict
  /-- A value is attached to a switch. -/
  | extraValue
  /-- Not an error: help is asked for. -/
  | help
  deriving DecidableEq, Repr

/-- What an argument can switch on. -/
inductive Switch
  | debug
  | json
  | printFilter
  | help
  deriving DecidableEq, Repr

/-- What an option can set. -/
inductive Param
  | host
  | port
  | base
  | limit
  | filterJson
  deriving DecidableEq, Repr

/-- The switch or option with a long name. -/
def named? : String → Option (Switch ⊕ Param)
  | "debug" => some (.inl .debug)
  | "json" => some (.inl .json)
  | "print-filter" => some (.inl .printFilter)
  | "help" => some (.inl .help)
  | "host" => some (.inr .host)
  | "port" => some (.inr .port)
  | "base" => some (.inr .base)
  | "limit" => some (.inr .limit)
  | "filter-json" => some (.inr .filterJson)
  | _ => none

/-! ## Setting and switching on -/

/-- The number below a bound that a value writes, as a signed integer of 64 bits. -/
def numberBelow? (bound : Nat) (value : String) : Option Nat :=
  match (Number.intOf? value.toList).filter Number.isInt64 with
  | some (.ofNat n) => if n < bound then some n else none
  | _ => none

/-- Sets an option. Nothing is set twice, whatever the second value. -/
def set (a : Arguments) (p : Param) (value : String) : Except Error Arguments :=
  match p with
  | .host => if a.host.isSome then .error .conflict else .ok { a with host := some value }
  | .base => if a.base.isSome then .error .conflict else .ok { a with base := some value }
  | .filterJson =>
    if a.filterJson.isSome then .error .conflict else .ok { a with filterJson := some value }
  | .port =>
    if a.port.isSome then .error .conflict
    else match numberBelow? UInt16.size value with
      | some n => .ok { a with port := some n.toUInt16 }
      | none => .error .badValue
  | .limit =>
    if a.limit.isSome then .error .conflict
    else match numberBelow? UInt32.size value with
      | some n => .ok { a with limit := some n.toUInt32 }
      | none => .error .badValue

/-- Switches something on, once. -/
def switchOn (a : Arguments) : Switch → Except Error Arguments
  | .debug => if a.debug then .error .conflict else .ok { a with debug := true }
  | .json => if a.json then .error .conflict else .ok { a with json := true }
  | .printFilter =>
    if a.printFilter then .error .conflict else .ok { a with printFilter := true }
  | .help => .error .help

/-! ## One argument after the other -/

/-- Arguments being read, and the option whose value is to come, or came last. -/
structure State where
  found : Arguments := {}
  waiting : Option (Param × Option String) := none

namespace State

/-- The arguments found, with the option that was waiting. -/
def settle (s : State) : Except Error Arguments :=
  match s.waiting with
  | none => .ok s.found
  | some (_, none) => .error .noValue
  | some (p, some value) => s.found.set p value

/-- An option, with the value attached to it or without one. -/
def takeParam (s : State) (p : Param) (attached : Option String) : Except Error State := do
  let found ← s.settle
  match attached with
  | some value => return { found := ← found.set p value }
  | none => return { found := found, waiting := some (p, none) }

/-- A switch, with the value attached to it or without one. -/
def takeSwitch (s : State) (switch : Switch) (attached : Option String) : Except Error State :=
  match attached with
  | some _ => .error .extraValue
  | none => do return { found := ← (← s.settle).switchOn switch }

/-- An argument that starts with two hyphens, without them. -/
def takeLong (s : State) (arg : List Char) : Except Error State :=
  let name := arg.takeWhile (· != '=')
  let attached := match arg.dropWhile (· != '=') with
    | [] => none
    | _ :: value => some (String.ofList value)
  match named? (String.ofList name) with
  | none => .error .unknown
  | some (.inl switch) => s.takeSwitch switch attached
  | some (.inr p) => s.takeParam p attached

/-- An argument that starts with one hyphen, without it. The letter `n` is the limit, whose value
may follow in the same argument, with an equals sign or without. -/
def takeShort (s : State) (arg : List Char) : Except Error State :=
  match arg with
  | 'h' :: _ => s.takeSwitch .help none
  | 'n' :: [] => s.takeParam .limit none
  | 'n' :: '=' :: value => s.takeParam .limit (some (String.ofList value))
  | 'n' :: value => s.takeParam .limit (some (String.ofList value))
  | _ => .error .unknown

/-- An argument that is no option or switch: the value waited for, or a term. -/
def takePlain (s : State) (arg : String) : Except Error State :=
  match s.waiting with
  | some (p, none) => .ok { s with waiting := some (p, some arg) }
  | _ => do
    let found ← s.settle
    return { found := { found with terms := found.terms ++ [arg] } }

/-- One argument, other than the two hyphens alone. -/
def take (s : State) (arg : String) : Except Error State :=
  match arg.toList with
  | '-' :: '-' :: rest => s.takeLong rest
  | '-' :: c :: rest => s.takeShort (c :: rest)
  | _ => s.takePlain arg

/-- All arguments. -/
def takeAll (s : State) : List String → Except Error Arguments
  | [] => s.settle
  | "--" :: rest => do
    let found ← s.settle
    return { found with terms := found.terms ++ rest }
  | arg :: rest => do (← s.take arg).takeAll rest

end State

/-- Reads a command line. A query is given as JSON or as terms, not both. -/
def read (args : List String) : Except Error Arguments := do
  let a ← ({} : State).takeAll args
  if a.filterJson.isSome ∧ a.terms ≠ [] then .error .conflict else return a

end Arguments

end DirectoryLookup
