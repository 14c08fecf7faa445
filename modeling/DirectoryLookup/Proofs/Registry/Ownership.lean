import DirectoryLookup.Registry
import Mathlib.Data.List.Induction

/-!
# Who owns an attribute

What a sequence of declarations comes to, told from the sequence as a whole instead of from the
registry after each declaration.

**Forwards** (`aliases_ofDeclarations`). A field stands for what its last declaration lists.

**Backwards** (`fieldFor?_append_cons`). Only the last declaration that lists an attribute counts
for its owner. The attribute belongs to the field of that declaration, unless the field is declared
anew behind it; then it belongs to nobody, whatever was declared before. If no field is declared
twice, none is declared anew, and the last declaration that lists an attribute says whose it is
(`fieldFor?_of_nodup`).
-/

namespace DirectoryLookup.Registry

/-- The declaration lists the attribute, in whatever case it spells the name. -/
def lists (attr : String) (d : Field × String) : Bool :=
  (Aliases.read d.2).any (Text.sameName attr)

variable {attr : String}

theorem fold_mem_map_fold_iff {names : List String} :
    Text.fold attr ∈ names.map Text.fold ↔ names.any (Text.sameName attr) = true := by
  rw [List.mem_map, List.any_eq_true]
  constructor
  · rintro ⟨name, hname, h⟩
    exact ⟨name, hname, Text.sameName_iff.2 h.symm⟩
  · rintro ⟨name, hname, h⟩
    exact ⟨name, hname, (Text.sameName_iff.1 h).symm⟩

/-! ## The last of several -/

section Last

variable {α : Type} {p : α → Bool}

theorem findRev?_concat (p : α → Bool) (l : List α) (a : α) :
    (l ++ [a]).findRev? p = if p a then some a else l.findRev? p := by
  simp only [List.findRev?_eq_find?_reverse, List.reverse_append, List.reverse_singleton,
    List.singleton_append, List.find?_cons]
  cases p a <;> rfl

theorem findRev?_eq_none_iff {l : List α} : l.findRev? p = none ↔ ∀ a ∈ l, p a = false := by
  simp [List.findRev?_eq_find?_reverse]

theorem findRev?_map {β : Type} (f : β → α) (p : α → Bool) (l : List β) :
    (l.map f).findRev? p = (l.findRev? (p ∘ f)).map f := by
  rw [List.findRev?_eq_find?_reverse, List.findRev?_eq_find?_reverse, ← List.map_reverse,
    List.find?_map]

/-- An element is the last with a property if none behind it has the property. -/
theorem findRev?_eq_some_iff {l : List α} {a : α} :
    l.findRev? p = some a ↔
      p a = true ∧ ∃ before after, l = before ++ a :: after ∧ ∀ b ∈ after, p b = false := by
  rw [List.findRev?_eq_find?_reverse, List.find?_eq_some_iff_append]
  constructor
  · rintro ⟨ha, after, before, h, hafter⟩
    refine ⟨ha, before.reverse, after.reverse, ?_, fun b hb => ?_⟩
    · rw [← List.reverse_reverse l, h, List.reverse_append, List.reverse_cons, List.append_assoc,
        List.singleton_append]
    · simpa using hafter b (List.mem_reverse.1 hb)
  · rintro ⟨ha, before, after, rfl, hafter⟩
    refine ⟨ha, after.reverse, before.reverse, by simp, fun b hb => ?_⟩
    simpa using hafter b (List.mem_reverse.1 hb)

end Last

/-! ## One more declaration -/

variable {ds : List (Field × String)} {d : Field × String}

theorem fieldFor?_concat_of_lists (h : lists attr d = true) :
    (ofDeclarations (ds ++ [d])).fieldFor? attr = some d.1 := by
  rw [fieldFor?, ofDeclarations_concat, owner_declare, if_pos (fold_mem_map_fold_iff.2 h)]

theorem fieldFor?_concat_of_not_lists (h : lists attr d = false) :
    (ofDeclarations (ds ++ [d])).fieldFor? attr =
      if (ofDeclarations ds).fieldFor? attr = some d.1 then none
      else (ofDeclarations ds).fieldFor? attr := by
  have hnot : Text.fold attr ∉ (Aliases.read d.2).map Text.fold := by
    intro hmem
    have hlists : lists attr d = true := fold_mem_map_fold_iff.1 hmem
    rw [h] at hlists
    cases hlists
  rw [fieldFor?, ofDeclarations_concat, (coherent_ofDeclarations ds).owner_declare, if_neg hnot]
  rfl

/-! ## All declarations -/

/-- **A field stands for what its last declaration lists.** -/
theorem aliases_ofDeclarations (ds : List (Field × String)) (f : Field) :
    (ofDeclarations ds).aliases f =
      (ds.findRev? fun d => d.1 = f).map fun d => Aliases.read d.2 := by
  induction ds using List.reverseRecOn with
  | nil => rfl
  | append_singleton ds d ih =>
    rw [ofDeclarations_concat, aliases_declare, findRev?_concat, ih]
    by_cases h : d.1 = f
    · rw [if_pos h.symm, if_pos (decide_eq_true h)]
      rfl
    · rw [if_neg (Ne.symm h), if_neg (by simpa using h)]

/-- An attribute that nothing lists belongs to nobody. -/
theorem fieldFor?_of_forall_not_lists (h : ∀ d ∈ ds, lists attr d = false) :
    (ofDeclarations ds).fieldFor? attr = none := by
  induction ds using List.reverseRecOn with
  | nil => rfl
  | append_singleton ds d ih =>
    rw [fieldFor?_concat_of_not_lists (h d (by simp)), ih fun d hd => h d (by simp [hd])]
    rfl

/-- **An attribute belongs to the field that lists it last**, until this field is declared anew. -/
theorem fieldFor?_append_cons {before after : List (Field × String)} (hd : lists attr d = true)
    (hafter : ∀ d' ∈ after, lists attr d' = false) :
    (ofDeclarations (before ++ d :: after)).fieldFor? attr =
      if d.1 ∈ after.map Prod.fst then none else some d.1 := by
  induction after using List.reverseRecOn with
  | nil => exact fieldFor?_concat_of_lists hd
  | append_singleton after d' ih =>
    have hd' : lists attr d' = false := hafter d' (by simp)
    have hih := ih fun d'' h => hafter d'' (by simp [h])
    rw [← List.cons_append, ← List.append_assoc, fieldFor?_concat_of_not_lists hd', hih]
    by_cases hmem : d.1 ∈ after.map Prod.fst
    · have hmem' : d.1 ∈ (after ++ [d']).map Prod.fst := by
        rw [List.map_append]
        exact List.mem_append_left _ hmem
      rw [if_pos hmem, if_pos hmem', if_neg (by simp)]
    · rw [if_neg hmem]
      by_cases heq : d.1 = d'.1
      · simp [heq]
      · simp [hmem, heq]

/-- **If no field is declared twice, an attribute belongs to the field that lists it last.** -/
theorem fieldFor?_of_nodup (hds : (ds.map Prod.fst).Nodup) :
    (ofDeclarations ds).fieldFor? attr = (ds.findRev? (lists attr)).map Prod.fst := by
  cases hlast : ds.findRev? (lists attr) with
  | none => exact fieldFor?_of_forall_not_lists (findRev?_eq_none_iff.1 hlast)
  | some d =>
    obtain ⟨hd, before, after, rfl, hafter⟩ := findRev?_eq_some_iff.1 hlast
    have hnew : d.1 ∉ after.map Prod.fst := by
      rw [List.map_append, List.map_cons] at hds
      exact (List.nodup_cons.1 (List.nodup_append.1 hds).2.1).1
    rw [fieldFor?_append_cons hd hafter, if_neg hnew]
    rfl

end DirectoryLookup.Registry
