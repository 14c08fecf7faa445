import DirectoryLookup.Settings.Raw
import DirectoryLookup.Yaml.Node

/-!
# Raw settings in YAML

A YAML text gives settings if its document is a table, or if it has no document. The keys of
tables are scalars other than null, taken as text; where two of them have one text, the value of
the last one counts.
-/

namespace DirectoryLookup.Settings

open Number
open Yaml (Node Scalar)

/-- The raw value of a scalar. A number without an end has none. -/
def Raw.ofScalar? (s : Scalar) : Option Raw :=
  match s with
  | .null => some .null
  | .bool b => some (.bool b)
  | .integer n => some (.integer n)
  | .real written => (Double.ofText? written).map .float
  | .text s => some (.text (String.ofList s))

/-- The text of a scalar that is a key. -/
def keyOf? : Node → Option String
  | .scalar (.bool b) => some (if b then "true" else "false")
  | .scalar (.integer n) => some (toString n)
  | .scalar (.real text) => some (String.ofList text)
  | .scalar (.text s) => some (String.ofList s)
  | _ => none

mutual

/-- The raw value of a node. -/
def Raw.ofYaml? (node : Node) : Option Raw :=
  match node with
  | .scalar s => Raw.ofScalar? s
  | .list items => (Raw.ofYamlItems? items).map .list
  | .table members => (Raw.ofYamlMembers? members).map fun es => .table (Entries.ofList es)
  | .useless => some .null
termination_by structural node

/-- The raw values of several nodes. -/
def Raw.ofYamlItems? (nodes : List Node) : Option (List Raw) :=
  match nodes with
  | [] => some []
  | n :: ns =>
    match Raw.ofYaml? n with
    | none => none
    | some v => (Raw.ofYamlItems? ns).map (v :: ·)
termination_by structural nodes

/-- The keys and raw values of several members. -/
def Raw.ofYamlMembers? (members : List (Node × Node)) : Option (List (String × Raw)) :=
  match members with
  | [] => some []
  | (key, n) :: ms =>
    match keyOf? key, Raw.ofYaml? n with
    | some key, some v => (Raw.ofYamlMembers? ms).map ((key, v) :: ·)
    | _, _ => none
termination_by structural members

end

/-- The settings in a YAML text. -/
def ofYaml? (text : List Char) : Option Table := do
  match ← Yaml.read? text with
  | none => some []
  | some node =>
    match ← Raw.ofYaml? node with
    | .table t => some t
    | _ => none

end DirectoryLookup.Settings
