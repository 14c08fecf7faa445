import DirectoryLookup.Text.Blank
import Mathlib.Data.List.TakeWhile

/-!
# What trimming takes away

**Theorem (`trims_iff`).** A text has one trimmed form, the one that trimming gives: what is left of
it without some blanks in front and some behind, when no blank is left at either end.
-/

namespace DirectoryLookup.Text

/-- No blank stands at an end of the text. The empty text has no ends. -/
structure Tight (t : List Char) : Prop where
  head : ∀ c, t.head? = some c → isBlank c = false
  last : ∀ c, t.getLast? = some c → isBlank c = false

/-- `Trims s t`: the text `s` is `t` with some blanks around it, and `t` has none at its ends. -/
inductive Trims : List Char → List Char → Prop
  | mk {before t after : List Char} :
      (∀ c ∈ before, isBlank c = true) → (∀ c ∈ after, isBlank c = true) → Tight t →
      Trims (before ++ t ++ after) t

theorem dropWhile_isBlank_of_head {s : List Char} (h : ∀ c, s.head? = some c → isBlank c = false) :
    s.dropWhile isBlank = s := by
  cases s with
  | nil => rfl
  | cons c s => rw [List.dropWhile_cons_of_neg (by simp [h c rfl])]

theorem trimEnd_append {t after : List Char} (hafter : ∀ c ∈ after, isBlank c = true)
    (ht : ∀ c, t.getLast? = some c → isBlank c = false) : trimEnd (t ++ after) = t := by
  have hhead : ∀ c, t.reverse.head? = some c → isBlank c = false := by
    rw [List.head?_reverse]
    exact ht
  rw [trimEnd, List.reverse_append, List.dropWhile_append_of_pos (by simpa using hafter),
    dropWhile_isBlank_of_head hhead, List.reverse_reverse]

/-- Behind what trailing blanks are cut off from, only blanks stood. -/
theorem exists_trimEnd_append (s : List Char) :
    ∃ after, s = trimEnd s ++ after ∧ ∀ c ∈ after, isBlank c = true := by
  refine ⟨(s.reverse.takeWhile isBlank).reverse, ?_, ?_⟩
  · rw [trimEnd, ← List.reverse_append, List.takeWhile_append_dropWhile, List.reverse_reverse]
  · intro c hc
    exact List.all_eq_true.1 List.all_takeWhile c (List.mem_reverse.1 hc)

theorem tight_trim (s : List Char) : Tight (trim s) :=
  ⟨fun _ => head_trim_not_blank s, fun _ => getLast_trim_not_blank s⟩

theorem trims_trim (s : List Char) : Trims s (trim s) := by
  obtain ⟨after, hafter, hblank⟩ := exists_trimEnd_append (s.dropWhile isBlank)
  have hs : s = s.takeWhile isBlank ++ trim s ++ after := by
    rw [trim, List.append_assoc, ← hafter, List.takeWhile_append_dropWhile]
  have hbefore : ∀ c ∈ s.takeWhile isBlank, isBlank c = true :=
    List.all_eq_true.1 List.all_takeWhile
  have h := Trims.mk hbefore hblank (tight_trim s)
  rwa [← hs] at h

/-- A text without blanks at its ends is its own trimmed form. -/
theorem Tight.trims {t : List Char} (h : Tight t) : Trims t t := by
  have htrims := Trims.mk (List.forall_mem_nil _) (List.forall_mem_nil _) h
  rwa [List.append_nil] at htrims

/-- Of blanks nothing is left. -/
theorem trims_nil {s : List Char} (h : ∀ c ∈ s, isBlank c = true) : Trims s [] := by
  have htight : Tight [] := ⟨by simp, by simp⟩
  have htrims := Trims.mk h (List.forall_mem_nil _) htight
  rwa [List.append_nil, List.append_nil] at htrims

/-- **A text has one trimmed form**, the one that trimming gives. -/
theorem trims_iff {s t : List Char} : Trims s t ↔ t = trim s := by
  constructor
  · rintro ⟨hbefore, hafter, htight⟩
    rw [trim, List.append_assoc, List.dropWhile_append_of_pos hbefore]
    cases t with
    | nil =>
      rw [List.nil_append, List.dropWhile_eq_nil_iff.2 hafter]
      rfl
    | cons c t =>
      rw [dropWhile_isBlank_of_head (s := c :: t ++ _) htight.head,
        trimEnd_append hafter htight.last]
  · rintro rfl
    exact trims_trim s

end DirectoryLookup.Text
