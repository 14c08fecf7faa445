/-!
# Code points

Every character has a number; the numbers of surrogates, and those that are too big, have none.
-/

namespace DirectoryLookup.Text

/-- The character with a number, if there is one. -/
def charOf? (n : Nat) : Option Char :=
  if n.isValidChar then some (Char.ofNat n) else none

/-- The number of a character is no surrogate's and not too big. -/
theorem toNat_range (c : Char) : c.toNat < 0xD800 ∨ 0xDFFF < c.toNat ∧ c.toNat < 0x110000 :=
  c.valid

end DirectoryLookup.Text
