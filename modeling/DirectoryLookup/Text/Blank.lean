/-!
# Blanks and trimming

A blank is a character with Unicode's `White_Space` property. Trimming removes the blanks at both
ends of a text and touches nothing between them.

Main statements: `head_trim_not_blank` and `getLast_trim_not_blank`, a trimmed text neither starts
nor ends with a blank.
-/

namespace DirectoryLookup.Text

/-- The 25 characters with Unicode's `White_Space` property. -/
def isBlank (c : Char) : Bool :=
  let n := c.toNat
  (0x09 ≤ n && n ≤ 0x0D) || n == 0x20 || n == 0x85 || n == 0xA0 || n == 0x1680 ||
    (0x2000 ≤ n && n ≤ 0x200A) || n == 0x2028 || n == 0x2029 || n == 0x202F || n == 0x205F ||
    n == 0x3000

/-- The text without its trailing blanks. -/
def trimEnd (s : List Char) : List Char :=
  (s.reverse.dropWhile isBlank).reverse

/-- The text without the blanks at both ends. -/
def trim (s : List Char) : List Char :=
  trimEnd (s.dropWhile isBlank)

/-- The string without the blanks at both ends. -/
def trimmed (s : String) : String :=
  String.ofList (trim s.toList)

/-- Every character is a blank; the empty text is blank too. -/
def isAllBlank (s : String) : Bool :=
  s.toList.all isBlank

/-! ## What trimming leaves -/

theorem head_dropWhile_not {p : Char → Bool} (s : List Char) {c : Char}
    (h : (s.dropWhile p).head? = some c) : p c = false := by
  induction s with
  | nil => simp at h
  | cons d s ih =>
    by_cases hd : p d
    · exact ih (by simpa [List.dropWhile_cons, hd] using h)
    · simp [hd] at h
      simpa [← h] using hd

/-- **A trimmed text ends with no blank.** -/
theorem getLast_trim_not_blank (s : List Char) {c : Char} (h : (trim s).getLast? = some c) :
    isBlank c = false :=
  head_dropWhile_not (s.dropWhile isBlank).reverse (by simpa [trim, trimEnd] using h)

/-- Trailing blanks are cut off a text, which stays a prefix of itself. -/
theorem trimEnd_prefix (s : List Char) : trimEnd s <+: s := by
  have h := List.dropWhile_suffix isBlank (l := s.reverse)
  simpa [trimEnd] using List.reverse_prefix.2 h

/-- **A trimmed text starts with no blank.** -/
theorem head_trim_not_blank (s : List Char) {c : Char} (h : (trim s).head? = some c) :
    isBlank c = false := by
  refine head_dropWhile_not s ?_
  obtain ⟨t, ht⟩ := trimEnd_prefix (s.dropWhile isBlank)
  cases hs : trimEnd (s.dropWhile isBlank) with
  | nil => simp [trim, hs] at h
  | cons d r =>
    simp [trim, hs] at h
    rw [← ht, hs, h]
    rfl

end DirectoryLookup.Text
