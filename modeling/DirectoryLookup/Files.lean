import DirectoryLookup.Text.Pieces

/-!
# Files

A tree of files, as far as a program that reads and writes texts can tell: a file is a text at an
absolute path, and a directory is there if it was made or if there is something in it.

A path given as a text is absolute, or relative to a working directory. It is followed name by
name, and each name is looked up in a directory that is there; so two dots lead back only from a
directory, never from a file or from nowhere.
-/

namespace DirectoryLookup

/-- The names on the way from the root to a file or directory. -/
abbrev Path := List String

/-- A tree of files. -/
structure Files where
  /-- The files with their texts, each path once. -/
  texts : List (Path × String)
  /-- Directories that are there even if they hold nothing. -/
  directories : List Path
  deriving DecidableEq, Repr

namespace Files

/-! ## What there is -/

/-- The text of the file at a path. -/
def textAt? (f : Files) (path : Path) : Option String :=
  f.texts.lookup path

/-- Whether there is a directory at a path. -/
def isDirectory (f : Files) (path : Path) : Bool :=
  f.directories.any (path.isPrefixOf ·) ||
    f.texts.any fun t => path.isPrefixOf t.1 && t.1 != path

/-- Whether there is a file or directory at a path. -/
def isThere (f : Files) (path : Path) : Bool :=
  (f.textAt? path).isSome || f.isDirectory path

/-! ## Names of a path -/

/-- The longest name that a file or directory has, in bytes. -/
def nameLimit : Nat :=
  255

/-- The longest text that stands for a path, in bytes. -/
def pathLimit : Nat :=
  4095

/-- The names of a path given as a text, without those that lead nowhere. -/
def namesOf (text : String) : List String :=
  ((Text.pieces (· == '/') text.toList).map String.ofList).filter fun n => n ≠ "" ∧ n ≠ "."

/-- The directory at which a path given as a text starts. -/
def startOf (working : Path) (text : String) : Path :=
  if text.toList.head? = some '/' then [] else working

/-- The text that stands for a path. -/
def textOf (path : Path) : String :=
  "/" ++ "/".intercalate path

/-- The absolute text for a path given as a text. -/
def absolute (working : Path) (text : String) : String :=
  if text.toList.head? = some '/' then text else textOf (working ++ [text])

/-- The path that a name leads to from a directory. -/
def enter? (f : Files) (directory : Path) (name : String) : Option Path :=
  if f.isDirectory directory ∧ name.utf8ByteSize ≤ nameLimit then
    some (if name = ".." then directory.dropLast else directory ++ [name])
  else none

/-- The path that a text stands for. The last of its names need not be there. -/
def resolve? (f : Files) (working : Path) (text : String) : Option Path :=
  if pathLimit < text.utf8ByteSize then none
  else (namesOf text).foldlM f.enter? (startOf working text)

/-! ## Changes -/

/-- Makes a directory at a path, unless there is one. -/
def makeDirectory? (f : Files) (path : Path) : Option Files :=
  if f.isDirectory path then some f
  else match f.textAt? path with
    | some _ => none
    | none => some { f with directories := path :: f.directories }

/-- Makes the directory that a name leads to from another, which becomes the place to go on. -/
def enterNew? (here : Files × Path) (name : String) : Option (Files × Path) := do
  let path ← here.1.enter? here.2 name
  return (← here.1.makeDirectory? path, path)

/-- Makes the directories that a text leads through. -/
def makeDirectories? (f : Files) (working : Path) (text : String) : Option Files :=
  if pathLimit < text.utf8ByteSize then none
  else ((namesOf text).foldlM enterNew? (f, startOf working text)).map (·.1)

/-- Writes a text into the file at a path, in place of what it held. -/
def write (f : Files) (path : Path) (text : String) : Files :=
  let others := f.texts.filter (·.1 != path)
  { f with texts := others ++ [(path, text)] }

end Files

end DirectoryLookup
