import DirectoryLookup.Proofs.Registry.Ownership
import DirectoryLookup.Proofs.Text.Utf8
import DirectoryLookup.Search.Searcher

/-!
# Overriding the defaults

An override replaces the default declaration of a field, and is usable if it names a field and
declares at least one attribute for it.

**Theorem (`withOverrides_cases`).** If some override is not usable, there is no registry, and the
failure names the first such override in the order of the bytes of the names. If all are usable,
there is one: each field stands for what its override declares, or else its default. An attribute
belongs to the last field, in the order of the defaults, that stands for it. The order of the
overrides has no part in it, nor which of the fields were overridden.
-/

namespace DirectoryLookup.Registry

/-! ## One declaration for each field -/

section Table

variable (text : Field → String)

theorem attributesFor_table (f : Field) :
    (ofDeclarations (Field.all.map fun g => (g, text g))).attributesFor f =
      Aliases.read (text f) := by
  have hlast : (Field.all.findRev? fun g => g = f) = some f := by
    cases f <;> rfl
  rw [attributesFor, aliases_ofDeclarations, findRev?_map]
  show (((Field.all.findRev? fun g => g = f).map fun g => (g, text g)).map _).getD [] = _
  rw [hlast]
  rfl

/-- An attribute belongs to the last field that is declared with it. -/
theorem fieldFor?_table (attr : String) :
    (ofDeclarations (Field.all.map fun g => (g, text g))).fieldFor? attr =
      Field.all.findRev? fun g => (Aliases.read (text g)).any (Text.sameName attr) := by
  have hfields : (Field.all.map fun g => (g, text g)).map Prod.fst = Field.all := by
    rw [List.map_map]
    exact List.map_id Field.all
  rw [fieldFor?_of_nodup (hfields ▸ Field.all_nodup), findRev?_map, Option.map_map]
  show (Field.all.findRev? fun g => (Aliases.read (text g)).any (Text.sameName attr)).map id = _
  rw [Option.map_id, id_eq]

end Table

/-! ## Usable overrides -/

/-- The override names a field and declares at least one attribute for it. -/
def Usable (override : String × String) : Prop :=
  (∃ f : Field, f.name = override.1) ∧ Aliases.read override.2 ≠ []

theorem isUsable_iff {override : String × String} : isUsable override = true ↔ Usable override := by
  rw [isUsable, Bool.and_eq_true, Option.isSome_iff_exists, Bool.not_eq_true',
    List.isEmpty_eq_false_iff]
  simp only [Usable, Field.ofName?_eq_some_iff]

instance (override : String × String) : Decidable (Usable override) :=
  decidable_of_iff _ isUsable_iff

theorem foldl_smallerKey (keys : List String) (least : String) :
    keys.foldl smallerKey (some least) = some (keys.foldl min least) := by
  induction keys generalizing least with
  | nil => rfl
  | cons key keys ih =>
    have hstep : smallerKey (some least) key = some (min least key) := by
      rw [smallerKey]
      by_cases h : key < least
      · rw [if_pos h, min_eq_right (le_of_lt h)]
      · rw [if_neg h, min_eq_left (not_lt.1 h)]
    rw [List.foldl_cons, List.foldl_cons, hstep, ih]

/-- The first unusable override is named by the least of their names. -/
theorem firstUnusable?_eq_min? (overrides : List (String × String)) :
    firstUnusable? overrides = ((overrides.filter (!isUsable ·)).map Prod.fst).min? := by
  rw [firstUnusable?]
  cases (overrides.filter (!isUsable ·)).map Prod.fst with
  | nil => rfl
  | cons key keys => exact foldl_smallerKey keys key

variable {overrides : List (String × String)}

theorem mem_unusable_iff {key : String} :
    key ∈ (overrides.filter (!isUsable ·)).map Prod.fst ↔
      ∃ text, (key, text) ∈ overrides ∧ ¬Usable (key, text) := by
  simp [← isUsable_iff]

theorem firstUnusable?_eq_none_iff :
    firstUnusable? overrides = none ↔ ∀ o ∈ overrides, Usable o := by
  rw [firstUnusable?_eq_min?, List.min?_eq_none_iff, List.map_eq_nil_iff, List.filter_eq_nil_iff]
  simp [← isUsable_iff]

/-- **The failure names an unusable override before all others** in the order of bytes. -/
theorem firstUnusable?_eq_some_iff {key : String} :
    firstUnusable? overrides = some key ↔
      (∃ text, (key, text) ∈ overrides ∧ ¬Usable (key, text)) ∧
        ∀ o ∈ overrides, ¬Usable o → Text.bytes key ≤ Text.bytes o.1 := by
  rw [firstUnusable?_eq_min?, List.min?_eq_some_iff, mem_unusable_iff]
  refine and_congr_right fun _ => ⟨fun h o ho hunusable => ?_, fun h other hother => ?_⟩
  · exact Text.bytes_le_iff.2 (h o.1 (mem_unusable_iff.2 ⟨o.2, ho, hunusable⟩))
  · obtain ⟨text, ho, hunusable⟩ := mem_unusable_iff.1 hother
    exact Text.bytes_le_iff.1 (h (other, text) ho hunusable)

/-! ## The registry with overrides -/

/-- What a field is declared with: its override, or else its default. -/
def declarationOf (overrides : List (String × String)) (f : Field) : String :=
  (overrides.lookup f.name).getD f.defaultAliases

theorem read_defaultAliases_ne_nil (f : Field) : Aliases.read f.defaultAliases ≠ [] := by
  cases f <;> decide

/-- Usable overrides and the defaults leave no field without attributes. -/
theorem read_declarationOf_ne_nil (h : ∀ o ∈ overrides, Usable o) (f : Field) :
    Aliases.read (declarationOf overrides f) ≠ [] := by
  rw [declarationOf]
  cases hlookup : overrides.lookup f.name with
  | none => exact read_defaultAliases_ne_nil f
  | some text =>
    obtain ⟨before, after, heq, -⟩ := List.lookup_eq_some_iff.1 hlookup
    have hmem : (f.name, text) ∈ overrides := heq ▸ by simp
    exact (h _ hmem).2

theorem withOverrides_of_unusable {key : String} (h : firstUnusable? overrides = some key) :
    withOverrides overrides = .error (.configuration ("schema." ++ key)) := by
  rw [withOverrides, h]

theorem withOverrides_of_usable (h : ∀ o ∈ overrides, Usable o) :
    withOverrides overrides =
      .ok (ofDeclarations (Field.all.map fun f => (f, declarationOf overrides f))) := by
  rw [withOverrides, firstUnusable?_eq_none_iff.2 h]
  rfl

/-- **The registry with overrides, or why there is none.** The same holds of a searcher, which is
made with the registry that its settings call for. -/
theorem withOverrides_cases (overrides : List (String × String)) :
    ((∃ o ∈ overrides, ¬Usable o) →
      ∃ key, (∃ text, (key, text) ∈ overrides ∧ ¬Usable (key, text)) ∧
        (∀ o ∈ overrides, ¬Usable o → Text.bytes key ≤ Text.bytes o.1) ∧
        withOverrides overrides = .error (.configuration ("schema." ++ key)) ∧
        ∀ settings : Settings, settings.schema = overrides →
          Search.Searcher.ofSettings settings = .error (.configuration ("schema." ++ key))) ∧
    ((∀ o ∈ overrides, Usable o) →
      ∃ r, withOverrides overrides = .ok r ∧
        (∀ settings : Settings, settings.schema = overrides →
          Search.Searcher.ofSettings settings = .ok ⟨settings, r⟩) ∧
        (∀ f, r.attributesFor f ≠ [] ∧
          r.attributesFor f =
            Aliases.read ((overrides.lookup f.name).getD f.defaultAliases)) ∧
        ∀ attr, r.fieldFor? attr =
          (personDeclarations.map Prod.fst).findRev? fun f =>
            (r.attributesFor f).any (Text.sameName attr)) := by
  constructor
  · rintro ⟨o, ho, hunusable⟩
    cases hfirst : firstUnusable? overrides with
    | none => exact absurd (firstUnusable?_eq_none_iff.1 hfirst o ho) hunusable
    | some key =>
      obtain ⟨hmem, hle⟩ := firstUnusable?_eq_some_iff.1 hfirst
      have herror := withOverrides_of_unusable hfirst
      refine ⟨key, hmem, hle, herror, fun settings hsettings => ?_⟩
      rw [Search.Searcher.ofSettings, Settings.registry, hsettings, herror]
      rfl
  · intro h
    have hok := withOverrides_of_usable h
    refine ⟨_, hok, fun settings hsettings => ?_, fun f => ?_, fun attr => ?_⟩
    · rw [Search.Searcher.ofSettings, Settings.registry, hsettings, hok]
      rfl
    · rw [attributesFor_table]
      exact ⟨read_declarationOf_ne_nil h f, rfl⟩
    · simp only [attributesFor_table]
      exact fieldFor?_table (declarationOf overrides) attr

/-- Of three unusable overrides the one with a capital is named. Of the fields that list a name the
last has it, overridden or not. -/
theorem withOverrides_cases_collision :
    withOverrides [("zzz", "x"), ("email", " ;,"), ("Uid", "uid")] =
        .error (.configuration "schema.Uid") ∧
      ∃ r, withOverrides [("email", "cn; o"), ("uid", "MAIL sn")] = .ok r ∧
        r.fieldFor? "CN" = some .email ∧ r.fieldFor? "mail" = some .uid ∧
        r.fieldFor? "SN" = some .lastName := by
  constructor
  · obtain ⟨key, ⟨text, hmem, -⟩, hle, herror, -⟩ :=
      (withOverrides_cases [("zzz", "x"), ("email", " ;,"), ("Uid", "uid")]).1
        ⟨("zzz", "x"), by decide, by decide⟩
    have huid := hle ("Uid", "uid") (by decide) (by decide)
    simp only [List.mem_cons, Prod.mk.injEq, List.not_mem_nil, or_false] at hmem
    rcases hmem with ⟨rfl, -⟩ | ⟨rfl, -⟩ | ⟨rfl, -⟩
    · exact absurd huid (by decide)
    · exact absurd huid (by decide)
    · exact herror
  · obtain ⟨r, hr, -, hattributes, howner⟩ :=
      (withOverrides_cases [("email", "cn; o"), ("uid", "MAIL sn")]).2 (by decide)
    refine ⟨r, hr, ?_, ?_, ?_⟩ <;> simp only [howner, hattributes] <;> decide

end DirectoryLookup.Registry
