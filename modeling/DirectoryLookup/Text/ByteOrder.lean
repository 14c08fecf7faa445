/-!
# Byte order marks

A text that comes from a file may have a byte order mark in front, which says how the file was
written and is no part of the text.
-/

namespace DirectoryLookup.Text

/-- A text without the byte order mark that may stand in front of it; of several, one goes. -/
def dropMark : List Char → List Char
  | '\uFEFF' :: s => s
  | s => s

end DirectoryLookup.Text
