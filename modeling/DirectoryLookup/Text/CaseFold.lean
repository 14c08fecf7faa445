/-!
# Names compared without case

Attribute names compare without regard to the case of ASCII letters. Folding brings a name to its
lower-case spelling, so that two names are the same exactly when their folded spellings are equal.
Letters outside ASCII are left alone.
-/

namespace DirectoryLookup.Text

/-- The name with every ASCII capital replaced by its small letter. -/
def fold (name : String) : String :=
  String.ofList (name.toList.map Char.toLower)

/-- Two names that differ at most in the case of ASCII letters. -/
def sameName (a b : String) : Bool :=
  fold a == fold b

theorem sameName_iff {a b : String} : sameName a b = true ↔ fold a = fold b := by
  simp [sameName]

theorem sameName_refl (a : String) : sameName a a = true :=
  sameName_iff.2 rfl

theorem sameName_comm (a b : String) : sameName a b = sameName b a := by
  simp [sameName, Bool.beq_comm]

theorem toLower_toLower (c : Char) : c.toLower.toLower = c.toLower := by
  have h : c.toLower.isUpper = false := by
    delta Char.isUpper Char.toLower
    split <;> grind [UInt32.toNat_add, Char.toNat_val]
  generalize c.toLower = d at h
  delta Char.isUpper at h
  delta Char.toLower
  split
  · next hd =>
    simp at h
    exact absurd (h hd.1) (UInt32.not_lt.2 hd.2)
  · rfl

/-- Folding a folded name changes nothing. -/
@[simp] theorem fold_fold (name : String) : fold (fold name) = fold name := by
  simp only [fold, String.toList_ofList, List.map_map, Function.comp_def, toLower_toLower]

end DirectoryLookup.Text
