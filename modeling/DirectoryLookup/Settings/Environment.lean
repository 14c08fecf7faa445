import DirectoryLookup.Settings.Path

/-!
# Settings from the environment

A variable counts if its name starts with `DIRSEARCH__`, in any case. The rest of the name is the
path of a setting, with two underscores in place of each dot: `DIRSEARCH__DIRECTORY__HOST`. Names
are taken in lower case.

The value of a variable is a text. One that reads as a yes or no, as an integer or as a number is
taken as such.
-/

namespace DirectoryLookup.Settings

open Number

/-! ## Names of variables -/

/-- A letter in lower case. Beside the ASCII capitals only the Kelvin sign has a small letter in
ASCII, and letters outside ASCII are of no use in the name of a setting. -/
def lowerChar (c : Char) : Char :=
  if c = '\u212A' then 'k' else c.toLower

/-- Each pair of underscores, from left to right, replaced by a dot. -/
def dotted : List Char → List Char
  | '_' :: '_' :: s => '.' :: dotted s
  | c :: s => c :: dotted s
  | [] => []

/-- What the names of the variables that count start with, in lower case. -/
def variableStart : List Char :=
  "dirsearch__".toList

/-- The path of the setting that a variable is for. A name that counts but makes no path is for a
setting that does not exist. -/
def variablePath? (name : String) : Option (List Step) :=
  let lower := name.toList.map lowerChar
  if variableStart.isPrefixOf lower then pathOf? (dotted (lower.drop variableStart.length))
  else none

/-! ## Values of variables -/

/-- What a variable's text stands for. -/
def valueOf (text : String) : Raw :=
  if lowerWord text = "true" then .bool true
  else if lowerWord text = "false" then .bool false
  else match (intOf? text.toList).filter isInt64 with
    | some n => .integer n
    | none =>
      match Double.ofText? text.toList with
      | some x => .float x
      | none => .text text

/-- A variable of the environment: its name and its text. -/
abbrev Variable := String × String

/-- Lays a variable over the settings. -/
def layVariable (root : Raw) (v : Variable) : Raw :=
  match variablePath? v.1 with
  | some path => layAt (some root) path (valueOf v.2)
  | none => root

end DirectoryLookup.Settings
