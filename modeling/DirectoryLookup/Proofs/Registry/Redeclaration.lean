import DirectoryLookup.Proofs.Registry.Ownership

/-!
# Declaring a field anew

A declaration remains if its field is not declared again behind it. What a field stands for is
settled by the declarations that remain, and so is everything that a search asks for. Whose an
attribute is, is not: the last declaration that lists it counts, even one that does not remain
(`fieldFor?_ofDeclarations`). Such a declaration has taken the attribute from the field that listed
it before, and nothing gives it back. The attribute is then an *orphan*: listed and owned by nobody.

**Theorem (`ofDeclarations_remaining`).** A registry answers as the one made of the declarations
that remain, except about the owners of its orphans.
-/

namespace DirectoryLookup.Registry

/-! ## The declarations that remain -/

/-- The declarations whose field is not declared again behind them. -/
def remaining : List (Field × String) → List (Field × String)
  | [] => []
  | d :: ds => if d.1 ∈ ds.map Prod.fst then remaining ds else d :: remaining ds

theorem remaining_sublist (ds : List (Field × String)) : (remaining ds).Sublist ds := by
  induction ds with
  | nil => exact List.Sublist.slnil
  | cons d ds ih =>
    unfold remaining
    split
    · exact ih.cons d
    · exact ih.cons_cons d

/-- No field is declared twice among the declarations that remain. -/
theorem nodup_remaining (ds : List (Field × String)) : ((remaining ds).map Prod.fst).Nodup := by
  induction ds with
  | nil => exact List.nodup_nil
  | cons d ds ih =>
    unfold remaining
    split
    · exact ih
    · next h =>
      rw [List.map_cons, List.nodup_cons]
      refine ⟨fun hmem => h ?_, ih⟩
      exact ((remaining_sublist ds).map Prod.fst).subset hmem

theorem remaining_append (ds ds' : List (Field × String)) :
    remaining (ds ++ ds') =
      (remaining ds).filter (fun d => d.1 ∉ ds'.map Prod.fst) ++ remaining ds' := by
  induction ds with
  | nil => rfl
  | cons d ds ih =>
    rw [List.cons_append, remaining, remaining, ih, List.map_append]
    by_cases h : d.1 ∈ ds.map Prod.fst
    · rw [if_pos h, if_pos (List.mem_append_left _ h)]
    · rw [if_neg h]
      by_cases h' : d.1 ∈ ds'.map Prod.fst
      · rw [if_pos (List.mem_append_right _ h'), List.filter_cons_of_neg (by simpa using h')]
      · rw [if_neg (by simp [List.mem_append, h, h']), List.filter_cons_of_pos (by simpa using h'),
          List.cons_append]

/-- The last declaration of a field remains. -/
theorem findRev?_field_remaining (ds : List (Field × String)) (f : Field) :
    ((remaining ds).findRev? fun d => d.1 = f) = ds.findRev? fun d => d.1 = f := by
  induction ds with
  | nil => rfl
  | cons d ds ih =>
    unfold remaining
    split
    · next h =>
      rw [ih, List.findRev?]
      cases hlast : ds.findRev? fun d => d.1 = f with
      | some d' => rfl
      | none =>
        have hne : d.1 ≠ f := by
          rintro rfl
          obtain ⟨d', hd', heq⟩ := List.mem_map.1 h
          simpa [heq] using findRev?_eq_none_iff.1 hlast d' hd'
        simp [hne]
    · rw [List.findRev?, List.findRev?, ih]

theorem aliases_ofDeclarations_remaining (ds : List (Field × String)) :
    (ofDeclarations (remaining ds)).aliases = (ofDeclarations ds).aliases := by
  funext f
  rw [aliases_ofDeclarations, aliases_ofDeclarations, findRev?_field_remaining]

/-! ## Owners -/

variable {attr : String}

/-- Of several declarations that list an attribute the last remains if its field is not declared
behind it. -/
theorem mem_remaining_iff {before after : List (Field × String)} {d : Field × String}
    (hd : lists attr d = true) (hafter : ∀ d' ∈ after, lists attr d' = false) :
    d ∈ remaining (before ++ d :: after) ↔ d.1 ∉ after.map Prod.fst := by
  rw [remaining_append, remaining, List.mem_append]
  constructor
  · rintro (hmem | hmem) hnew
    · simpa using (List.mem_filter.1 hmem).2
    · rw [if_pos hnew] at hmem
      have hnot := hafter d ((remaining_sublist after).subset hmem)
      rw [hd] at hnot
      cases hnot
  · intro hnew
    rw [if_neg hnew]
    exact .inr List.mem_cons_self

/-- **An attribute belongs to the field of the last declaration that lists it, if this declaration
remains**, and to nobody if it does not. -/
theorem fieldFor?_ofDeclarations (ds : List (Field × String)) (attr : String) :
    (ofDeclarations ds).fieldFor? attr =
      ((ds.findRev? (lists attr)).filter fun d => d ∈ remaining ds).map Prod.fst := by
  cases hlast : ds.findRev? (lists attr) with
  | none => exact fieldFor?_of_forall_not_lists (findRev?_eq_none_iff.1 hlast)
  | some d =>
    obtain ⟨hd, before, after, rfl, hafter⟩ := findRev?_eq_some_iff.1 hlast
    have hiff : d ∈ remaining (before ++ d :: after) ↔ d.1 ∉ after.map Prod.fst :=
      mem_remaining_iff hd hafter
    rw [fieldFor?_append_cons hd hafter]
    by_cases hnew : d.1 ∈ after.map Prod.fst
    · rw [if_pos hnew, Option.filter_some_neg (by simpa using fun h => hiff.1 h hnew)]
      rfl
    · rw [if_neg hnew, Option.filter_some_pos (by simpa using hiff.2 hnew)]
      rfl

theorem fieldFor?_remaining (ds : List (Field × String)) (attr : String) :
    (ofDeclarations (remaining ds)).fieldFor? attr =
      ((remaining ds).findRev? (lists attr)).map Prod.fst :=
  fieldFor?_of_nodup (nodup_remaining ds)

/-- A last declaration that remains is also the last of those that remain. -/
theorem findRev?_lists_remaining {ds : List (Field × String)} {d : Field × String}
    (hlast : ds.findRev? (lists attr) = some d) (hmem : d ∈ remaining ds) :
    (remaining ds).findRev? (lists attr) = some d := by
  obtain ⟨hd, before, after, rfl, hafter⟩ := findRev?_eq_some_iff.1 hlast
  rw [remaining_append, remaining, if_neg ((mem_remaining_iff hd hafter).1 hmem)]
  refine findRev?_eq_some_iff.2 ⟨hd, _, _, rfl, fun d' hd' => ?_⟩
  exact hafter d' ((remaining_sublist after).subset hd')

/-! ## Orphans -/

/-- The last declaration that lists the attribute does not remain, but another one that lists it
does. -/
def Orphaned (ds : List (Field × String)) (attr : String) : Prop :=
  (∃ d ∈ ds.findRev? (lists attr), d ∉ remaining ds) ∧ ∃ d ∈ remaining ds, lists attr d = true

instance (ds : List (Field × String)) (attr : String) : Decidable (Orphaned ds attr) :=
  inferInstanceAs (Decidable (_ ∧ _))

variable {ds : List (Field × String)}

theorem fieldFor?_of_orphaned (h : Orphaned ds attr) :
    (ofDeclarations ds).fieldFor? attr = none := by
  obtain ⟨⟨d, hlast, hnot⟩, -⟩ := h
  rw [fieldFor?_ofDeclarations, Option.mem_def.1 hlast,
    Option.filter_some_neg (by simpa using hnot)]
  rfl

/-- **All other attributes have the owner that the remaining declarations give them.** -/
theorem fieldFor?_of_not_orphaned (h : ¬Orphaned ds attr) :
    (ofDeclarations ds).fieldFor? attr = ((remaining ds).findRev? (lists attr)).map Prod.fst := by
  rw [fieldFor?_ofDeclarations]
  cases hlast : ds.findRev? (lists attr) with
  | none =>
    have hnone : (remaining ds).findRev? (lists attr) = none := by
      rw [findRev?_eq_none_iff]
      intro d hd
      exact findRev?_eq_none_iff.1 hlast d ((remaining_sublist ds).subset hd)
    rw [hnone]
    rfl
  | some d =>
    by_cases hmem : d ∈ remaining ds
    · rw [findRev?_lists_remaining hlast hmem, Option.filter_some_pos (by simpa using hmem)]
    · have hnone : (remaining ds).findRev? (lists attr) = none := by
        rw [findRev?_eq_none_iff]
        intro d' hd'
        by_contra hlists
        exact h ⟨⟨d, hlast, hmem⟩, d', hd', by simpa using hlists⟩
      rw [hnone, Option.filter_some_neg (by simpa using hmem)]

/-- What a remaining declaration lists belongs to somebody if only these count. -/
theorem exists_fieldFor?_remaining (h : ∃ d ∈ remaining ds, lists attr d = true) :
    ∃ owner, (ofDeclarations (remaining ds)).fieldFor? attr = some owner := by
  rw [fieldFor?_remaining]
  cases hlast : (remaining ds).findRev? (lists attr) with
  | some d => exact ⟨d.1, rfl⟩
  | none =>
    obtain ⟨d, hd, hlists⟩ := h
    rw [findRev?_eq_none_iff.1 hlast d hd] at hlists
    cases hlists

theorem exists_lists_of_mem_attributesFor {f : Field} {name : String}
    (h : name ∈ (ofDeclarations ds).attributesFor f) :
    ∃ d ∈ remaining ds, lists name d = true := by
  rw [attributesFor, aliases_ofDeclarations, ← findRev?_field_remaining] at h
  cases hlast : (remaining ds).findRev? fun d => d.1 = f with
  | none =>
    rw [hlast] at h
    exact absurd h List.not_mem_nil
  | some d =>
    rw [hlast] at h
    obtain ⟨-, before, after, heq, -⟩ := findRev?_eq_some_iff.1 hlast
    refine ⟨d, heq ▸ by simp, ?_⟩
    exact List.any_eq_true.2 ⟨name, h, Text.sameName_refl name⟩

/-! ## The registry of the remaining declarations -/

/-- **A registry answers as if replaced declarations had never been made, orphans apart.** An orphan
belongs to nobody, where the declarations that remain would give it an owner. -/
theorem ofDeclarations_remaining (ds : List (Field × String)) :
    let r := ofDeclarations ds
    let r' := ofDeclarations (remaining ds)
    (∀ f, r.attributesFor f = r'.attributesFor f) ∧
    (∀ name, r.attributesForName? name = r'.attributesForName? name) ∧
    r.attributeNames = r'.attributeNames ∧
    (∀ attr, ¬Orphaned ds attr →
      r.fieldFor? attr = r'.fieldFor? attr ∧
      r.fieldFor? attr = ((remaining ds).findRev? (lists attr)).map Prod.fst) ∧
    (∀ f, ∀ name ∈ r.attributesFor f, ¬Orphaned ds name →
      ∃ owner, r.fieldFor? name = some owner) ∧
    (∀ attr, Orphaned ds attr →
      r.fieldFor? attr = none ∧ ∃ owner, r'.fieldFor? attr = some owner) := by
  intro r r'
  have haliases : r'.aliases = r.aliases := aliases_ofDeclarations_remaining ds
  have hattributes : ∀ f, r.attributesFor f = r'.attributesFor f := by
    intro f
    rw [attributesFor, attributesFor, haliases]
  refine ⟨hattributes, ?_, ?_, ?_, ?_, ?_⟩
  · intro name
    rw [attributesForName?, attributesForName?, haliases]
  · rw [attributeNames, attributeNames, funext hattributes]
  · intro attr h
    have howner := fieldFor?_of_not_orphaned h
    exact ⟨howner.trans (fieldFor?_remaining ds attr).symm, howner⟩
  · intro f name hname h
    obtain ⟨owner, howner⟩ := exists_fieldFor?_remaining (exists_lists_of_mem_attributesFor hname)
    rw [fieldFor?_remaining, ← fieldFor?_of_not_orphaned h] at howner
    exact ⟨owner, howner⟩
  · intro attr h
    exact ⟨fieldFor?_of_orphaned h, exists_fieldFor?_remaining h.2⟩

/-- A name that another field has taken stays with that field when the first is declared anew. -/
theorem ofDeclarations_remaining_taken :
    let ds := [(Field.fullName, "cn name"), (.lastName, "sn Name"), (.fullName, "displayName")]
    ¬Orphaned ds "NAME" ∧ (ofDeclarations ds).fieldFor? "NAME" = some .lastName := by
  intro ds
  have h : ¬Orphaned ds "NAME" := by decide
  exact ⟨h, ((ofDeclarations_remaining ds).2.2.2.1 "NAME" h).2⟩

/-- A name that another field has taken is not given back when that field is declared anew. -/
theorem fieldFor?_name_orphaned :
    let ds := [(Field.fullName, "cn name"), (.lastName, "sn name"), (.lastName, "x")]
    (ofDeclarations ds).attributesFor .fullName = ["cn", "name"] ∧
      (ofDeclarations ds).fieldFor? "name" = none ∧
      (ofDeclarations (remaining ds)).fieldFor? "name" = some .fullName := by
  decide

end DirectoryLookup.Registry
