/-!
# Comments

Comments between tokens: from two slashes to the end of the line, or from a slash and an asterisk
to an asterisk and a slash. A format decides which characters are spaces, which end a line, and
whether comments of the second kind may stand in one another.
-/

namespace DirectoryLookup.Text

/-- What may stand between the tokens of a format. -/
structure Spacing where
  isSpace : Char → Bool
  endsLine : Char → Bool
  /-- Whether comments may stand in one another. -/
  nested : Bool

/-- Where spacing is being skipped. -/
inductive Skipping
  | outside
  /-- In a comment that ends with the line. -/
  | line
  /-- In a comment that stands in this many others. -/
  | inside (depth : Nat)
  deriving DecidableEq, Repr

namespace Spacing

/-- What follows the spaces and comments in front of a text. A comment that is begun has to end. -/
def dropFrom? (p : Spacing) : Skipping → List Char → Option (List Char)
  | .outside, '/' :: '/' :: text => p.dropFrom? .line text
  | .outside, '/' :: '*' :: text => p.dropFrom? (.inside 0) text
  | .outside, c :: text => if p.isSpace c then p.dropFrom? .outside text else some (c :: text)
  | .line, c :: text => p.dropFrom? (if p.endsLine c then .outside else .line) text
  | .inside 0, '*' :: '/' :: text => p.dropFrom? .outside text
  | .inside (d + 1), '*' :: '/' :: text => p.dropFrom? (.inside d) text
  | .inside d, '/' :: '*' :: text =>
    if p.nested then p.dropFrom? (.inside (d + 1)) text else p.dropFrom? (.inside d) ('*' :: text)
  | .inside d, _ :: text => p.dropFrom? (.inside d) text
  | .inside _, [] => none
  | _, [] => some []
termination_by _ text => text.length

/-- What follows the spaces and comments in front of a text. -/
def drop? (p : Spacing) (text : List Char) : Option (List Char) :=
  p.dropFrom? .outside text

end Spacing

end DirectoryLookup.Text
