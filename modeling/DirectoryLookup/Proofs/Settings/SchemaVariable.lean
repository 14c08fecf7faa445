import DirectoryLookup.Proofs.Registry.Overrides
import DirectoryLookup.Proofs.Settings.Loading

/-!
# Alias declarations from the environment

The names of variables are taken in lower case, and those of fields as they are. So a variable
declares a field only if the name of the field has no capitals; `firstName` and three more have one.

**Theorem (`registry_load?_schemaVariable`).** With a variable that declares a field settings load.
If the name of the field has no capitals, the field then stands for what the variable declares, and
every other field for what it does by default. Otherwise there is no registry, and the failure names
the field in lower case, which is the name of no field.
-/

namespace DirectoryLookup

/-- No two fields have names that differ in case only. -/
theorem Field.eq_of_fold_name_eq {f g : Field} (h : Text.fold f.name = Text.fold g.name) :
    f = g := by
  have hnodup : (all.map fun f => Text.fold f.name).Nodup := by decide +kernel
  exact List.inj_on_of_nodup_map hnodup (mem_all f) (mem_all g) h

/-- A name in lower case is the name of a field only if the field's name has no capitals. -/
theorem Field.fold_name_eq_of_name_eq {f g : Field} (h : g.name = Text.fold f.name) :
    Text.fold f.name = f.name := by
  have hfold : Text.fold g.name = Text.fold f.name := by rw [h, Text.fold_fold]
  rw [← h, eq_of_fold_name_eq hfold]

/-! ## One override -/

namespace Registry

variable {text : String}

/-- An override of one field leaves the other fields their defaults. -/
theorem withOverrides_single (f : Field) (hread : Aliases.read text ≠ []) :
    ∃ r, withOverrides [(f.name, text)] = .ok r ∧
      r.attributesFor f = Aliases.read text ∧
      ∀ g, g ≠ f → r.attributesFor g = Aliases.read g.defaultAliases := by
  have husable : ∀ o ∈ [(f.name, text)], Usable o := by
    intro o ho
    obtain rfl := List.mem_singleton.1 ho
    exact ⟨⟨f, rfl⟩, hread⟩
  refine ⟨_, withOverrides_of_usable husable, ?_, fun g hg => ?_⟩
  · rw [attributesFor_table]
    simp [declarationOf]
  · have hname : g.name ≠ f.name := fun h => hg (Field.eq_of_fold_name_eq (by rw [h]))
    rw [attributesFor_table]
    simp [declarationOf, List.lookup_cons, beq_eq_false_iff_ne.2 hname]

/-- An override under the name of no field is named by the failure. -/
theorem withOverrides_single_unknown {key : String} (h : ∀ g : Field, g.name ≠ key) :
    withOverrides [(key, text)] = .error (.configuration ("schema." ++ key)) := by
  have hunusable : ¬Usable (key, text) := fun ⟨⟨g, hg⟩, _⟩ => h g hg
  refine withOverrides_of_unusable (firstUnusable?_eq_some_iff.2 ⟨?_, ?_⟩)
  · exact ⟨text, by simp, hunusable⟩
  · intro o ho _
    obtain rfl := List.mem_singleton.1 ho
    exact List.le_refl _

end Registry

namespace Settings

open Number

/-- The text is no yes or no and no number. A variable with such a text has just this value. -/
structure IsWord (text : String) : Prop where
  ne_true : lowerWord text ≠ "true"
  ne_false : lowerWord text ≠ "false"
  not_integer : intOf? text.toList = none
  not_float : Double.ofText? text.toList = none

/-- The name of the variable that declares a field: the name of the field in capitals. -/
def schemaVariable (f : Field) : String :=
  "DIRSEARCH__SCHEMA__" ++ String.ofList (f.name.toList.map Char.toUpper)

theorem IsWord.valueOf_eq {text : String} (h : IsWord text) : valueOf text = .text text := by
  simp [valueOf, h.ne_true, h.ne_false, h.not_integer, h.not_float]

theorem names_schemaVariable (f : Field) :
    Names (schemaVariable f) ("schema", Text.fold f.name) := by
  cases f <;> decide +kernel

/-! ## Loading one declaration -/

theorem uint16?_toNat (n : UInt16) : (Raw.integer n.toNat).uint16? = some n :=
  Raw.uint16?_eq_some_iff.2 (Raw.number?_natCast _)

theorem uint32?_toNat (n : UInt32) : (Raw.integer n.toNat).uint32? = some n :=
  Raw.uint32?_eq_some_iff.2 (Raw.number?_natCast _)

theorem uint64?_toNat (n : UInt64) : (Raw.integer n.toNat).uint64? = some n :=
  Raw.uint64?_eq_some_iff.2 (Raw.number?_natCast _)

theorem schemaOf?_texts (schema : List (String × String)) :
    schemaOf? (some (.table (schema.map fun e => (e.1, .text e.2)))) = some schema := by
  induction schema with
  | nil => rfl
  | cons e schema ih =>
    rw [List.map_cons, schemaOf?_cons, ih]
    rfl

/-- **The raw table for settings makes these settings.** -/
theorem ofTable?_toTable (s : Settings) : ofTable? (toTable s) = some s := by
  simp [ofTable?, toTable, sectionOf?, setting?, Entries.get?_cons, Raw.text?, Raw.bool?,
    uint16?_toNat, uint32?_toNat, uint64?_toNat, schemaOf?_texts]

/-- A variable for a key of the schema makes settings with one declaration. -/
theorem load?_schema {name key text : String} (h : Names name ("schema", key))
    (htext : IsWord text) : load? none [(name, text)] = some { schema := [(key, text)] } := by
  have hroot : layVariable defaultRoot (name, text) =
      .table (toTable { schema := [(key, text)] }) := by
    rw [defaultRoot, layVariable_of_names h, htext.valueOf_eq]
    rfl
  calc load? none [(name, text)]
      = ofTable? (entriesOf (some (layVariable defaultRoot (name, text)))) := rfl
    _ = some { schema := [(key, text)] } := by
        rw [hroot]
        exact ofTable?_toTable _

/-! ## The registry -/

variable {text : String}

/-- **A variable declares a field whose name has no capitals**, and no other. -/
theorem registry_load?_schemaVariable (f : Field) (htext : IsWord text)
    (hread : Aliases.read text ≠ []) :
    ∃ s, load? none [(schemaVariable f, text)] = some s ∧
      (Text.fold f.name = f.name → ∃ r, s.registry = .ok r ∧
        r.attributesFor f = Aliases.read text ∧
        ∀ g, g ≠ f → r.attributesFor g = Aliases.read g.defaultAliases) ∧
      (Text.fold f.name ≠ f.name →
        s.registry = .error (.configuration ("schema." ++ Text.fold f.name))) := by
  refine ⟨_, load?_schema (names_schemaVariable f) htext, fun hfold => ?_, fun hfold => ?_⟩
  · obtain ⟨r, hr, hattributes⟩ := Registry.withOverrides_single f hread
    refine ⟨r, ?_, hattributes⟩
    rw [Settings.registry, hfold]
    exact hr
  · exact Registry.withOverrides_single_unknown fun g hg => hfold (Field.fold_name_eq_of_name_eq hg)

/-- Mail addresses are declared by a variable; the surname keeps its default. -/
theorem registry_load?_schemaVariable_email :
    IsWord "mail; rfc822Mailbox" ∧ Aliases.read "mail; rfc822Mailbox" ≠ [] ∧
      ∃ s r, load? none [("DIRSEARCH__SCHEMA__EMAIL", "mail; rfc822Mailbox")] = some s ∧
        s.registry = .ok r ∧ r.attributesFor .email = ["mail", "rfc822Mailbox"] ∧
        r.attributesFor .lastName = ["sn"] := by
  have htext : IsWord "mail; rfc822Mailbox" := by
    constructor <;> decide +kernel
  have hread : Aliases.read "mail; rfc822Mailbox" = ["mail", "rfc822Mailbox"] := by decide +kernel
  have hsome : Aliases.read "mail; rfc822Mailbox" ≠ [] := by
    rw [hread]
    exact List.cons_ne_nil _ _
  have hname : schemaVariable .email = "DIRSEARCH__SCHEMA__EMAIL" := by decide +kernel
  obtain ⟨s, hs, hregistry, -⟩ := registry_load?_schemaVariable .email htext hsome
  obtain ⟨r, hr, hemail, hothers⟩ := hregistry (by decide +kernel)
  refine ⟨htext, hsome, s, r, hname ▸ hs, hr, hread ▸ hemail, ?_⟩
  rw [hothers .lastName (by decide)]
  decide +kernel

/-- The first name cannot be declared by a variable. -/
theorem registry_load?_schemaVariable_firstName :
    IsWord "givenName gn" ∧ Aliases.read "givenName gn" ≠ [] ∧
      ∃ s, load? none [("DIRSEARCH__SCHEMA__FIRSTNAME", "givenName gn")] = some s ∧
        s.registry = .error (.configuration "schema.firstname") := by
  have htext : IsWord "givenName gn" := by
    constructor <;> decide +kernel
  refine ⟨htext, by decide +kernel, { schema := [("firstname", "givenName gn")] }, ?_, ?_⟩
  · exact load?_schema (by decide +kernel) htext
  · refine Registry.withOverrides_single_unknown fun g hg => ?_
    cases g <;> exact absurd hg (by decide)

end Settings

end DirectoryLookup
