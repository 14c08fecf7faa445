import DirectoryLookup.Text.Blank
import DirectoryLookup.Text.CaseFold
import DirectoryLookup.Text.Pieces

/-!
# Alias declarations

A field is declared with the attribute names that it stands for, written one after the other and
separated by commas, spaces or semicolons in any number: `mail, rfc822Mailbox; mailAlternate`.

Reading a declaration gives an ordered set: pieces that are blank are dropped, the others are
trimmed, and of names that differ only in case the first spelling stays.
-/

namespace DirectoryLookup.Aliases

/-- The characters that separate the names of a declaration. -/
def isDelimiter (c : Char) : Bool :=
  c == ',' || c == ' ' || c == ';'

/-- Adds a name at the end unless it is there already in some spelling. -/
def insert (names : List String) (name : String) : List String :=
  if names.any (Text.sameName name) then names else names ++ [name]

/-- The pieces of a declaration that hold a name, trimmed. -/
def namesIn (declaration : List Char) : List String :=
  (((Text.pieces isDelimiter declaration).map Text.trim).filter (· ≠ [])).map String.ofList

/-- The attribute names of a declaration, each once, in order of first occurrence. -/
def read (declaration : String) : List String :=
  (namesIn declaration.toList).foldl insert []

/-- A delimiter ends the names before it and starts those after it. -/
theorem namesIn_append (a b : List Char) {c : Char} (hc : isDelimiter c = true) :
    namesIn (a ++ c :: b) = namesIn a ++ namesIn b := by
  simp [namesIn, Text.pieces_append a b hc]

end DirectoryLookup.Aliases
