/-!
# Pieces of a text

A text cut at some of its characters, the marks. There is one piece more than there are marks, so
a text without one is a piece by itself, and neighbouring marks have an empty piece between them.

Main statement: `pieces_append`, a mark ends the pieces before it and starts those after it.
-/

namespace DirectoryLookup.Text

/-- The pieces of a text between its marks. -/
def pieces (isMark : Char → Bool) : List Char → List (List Char)
  | [] => [[]]
  | c :: s =>
    if isMark c then [] :: pieces isMark s
    else match pieces isMark s with
      | [] => [[c]]
      | p :: ps => (c :: p) :: ps

theorem pieces_ne_nil (isMark : Char → Bool) (s : List Char) : pieces isMark s ≠ [] := by
  cases s with
  | nil => simp [pieces]
  | cons c s =>
    simp only [pieces]
    split
    · simp
    · split <;> simp

/-- A text without marks is a piece by itself. -/
theorem pieces_of_forall_not {isMark : Char → Bool} {s : List Char}
    (h : ∀ c ∈ s, isMark c = false) : pieces isMark s = [s] := by
  induction s with
  | nil => rfl
  | cons c s ih =>
    have hc : isMark c = false := h c (by simp)
    rw [pieces, ih fun d hd => h d (by simp [hd])]
    simp [hc]

/-- A mark ends the pieces before it and starts those after it. -/
theorem pieces_append {isMark : Char → Bool} (a b : List Char) {c : Char} (hc : isMark c = true) :
    pieces isMark (a ++ c :: b) = pieces isMark a ++ pieces isMark b := by
  induction a with
  | nil => simp [pieces, hc]
  | cons d a ih =>
    simp only [List.cons_append, pieces, ih]
    split
    · rfl
    · cases h : pieces isMark a with
      | nil => exact absurd h (pieces_ne_nil isMark a)
      | cons p ps => rfl

end DirectoryLookup.Text
