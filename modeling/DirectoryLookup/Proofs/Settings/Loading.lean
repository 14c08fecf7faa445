import DirectoryLookup.Proofs.Settings.Layers
import Mathlib.Data.List.Nodup
import Mathlib.Data.List.Perm.Basic

/-!
# Settings key by key

**Main theorem (`load?_layers`).** Settings load from a TOML or JSON file of single values and an
environment exactly if the effective value of every setting can be converted to its kind, and each
of them is then the conversion of its own effective value. Nothing else has a part in it: files
with the same values for settings, and environments with the same variables for them, load alike,
whatever else they hold and in whatever order.

*Summary of the proof.* Loading converts the table that the layers leave, and the value at a place
in this table is the effective one (`valueAt?_layers`). In a table of sections that has a value for
every setting with a default, conversion takes each setting by itself
(`IsComplete.ofTable?_eq_some_iff`), and the schema entry by entry (`schemaOf?_eq_some`). The
effective value at a place depends on the members and variables for this place only, since a reader
leaves each key once (`effective?_congr`).

The order of members shows in one thing: alias declarations stand in the order in which their keys
came. So settings are compared up to this order (`Alike`).
-/

namespace DirectoryLookup.Settings

/-! ## Settings and their kinds -/

/-- The kinds of values that settings have. -/
inductive Kind
  | text
  | uint16
  | uint32
  | uint64
  | bool
  deriving DecidableEq, Repr

/-- The kind of the setting at a place, if there is one; in the schema every key is a setting. -/
def kindOf? : Place → Option Kind
  | ("directory", "host") => some .text
  | ("directory", "port") => some .uint16
  | ("directory", "search_base") => some .text
  | ("search", "size_limit") => some .uint32
  | ("search", "time_limit_secs") => some .uint64
  | ("search", "page_size") => some .uint32
  | ("search", "escape_values") => some .bool
  | ("schema", _) => some .text
  | _ => none

/-- A raw value can be converted to a kind. -/
def Kind.fits : Kind → Raw → Bool
  | .text, r => r.text?.isSome
  | .uint16, r => r.uint16?.isSome
  | .uint32, r => r.uint32?.isSome
  | .uint64, r => r.uint64?.isSome
  | .bool, r => r.bool?.isSome

/-- Each setting is the value at its place, converted. -/
structure IsConversion (value? : Place → Option Raw) (s : Settings) : Prop where
  host : (value? ("directory", "host")).bind Raw.text? = some s.host
  port : (value? ("directory", "port")).bind Raw.uint16? = some s.port
  searchBase : (value? ("directory", "search_base")).bind Raw.text? = some s.searchBase
  sizeLimit : (value? ("search", "size_limit")).bind Raw.uint32? = some s.sizeLimit
  timeLimit : (value? ("search", "time_limit_secs")).bind Raw.uint64? = some s.timeLimit
  pageSize : (value? ("search", "page_size")).bind Raw.uint32? = some s.pageSize
  escapeValues : (value? ("search", "escape_values")).bind Raw.bool? = some s.escapeValues
  schema : ∀ key, s.schema.lookup key = (value? ("schema", key)).bind Raw.text?
  distinct : Entries.Distinct s.schema

/-- The same settings, but for the order of the alias declarations. -/
def Alike (s t : Settings) : Prop :=
  s.schema.Perm t.schema ∧ t = { s with schema := t.schema }

/-! ## The schema -/

theorem schemaOf?_cons (e : String × Raw) (t : Table) :
    schemaOf? (some (.table (e :: t))) =
      e.2.text?.bind fun text => (schemaOf? (some (.table t))).map ((e.1, text) :: ·) := by
  simp only [schemaOf?, List.mapM_cons]
  cases e.2.text? with
  | none => rfl
  | some text => cases t.mapM fun e => e.2.text?.map (e.1, ·) <;> rfl

/-- The declarations of a schema are its values, converted key by key. -/
theorem schemaOf?_eq_some {t : Table} {schema : List (String × String)}
    (h : schemaOf? (some (.table t)) = some schema) :
    schema.map Prod.fst = t.map Prod.fst ∧ (∀ e ∈ t, e.2.text?.isSome = true) ∧
      ∀ key, schema.lookup key = (Entries.get? t key).bind Raw.text? := by
  induction t generalizing schema with
  | nil =>
    obtain rfl := Option.some.inj h
    exact ⟨rfl, by simp, fun key => rfl⟩
  | cons e t ih =>
    obtain ⟨k, v⟩ := e
    rw [schemaOf?_cons] at h
    obtain ⟨text, htext, h⟩ := Option.bind_eq_some_iff.1 h
    obtain ⟨schema', hschema', rfl⟩ := Option.map_eq_some_iff.1 h
    obtain ⟨hkeys, hfits, hlookup⟩ := ih hschema'
    refine ⟨by simp [hkeys], ?_, fun key => ?_⟩
    · intro e he
      rcases List.mem_cons.1 he with rfl | he
      · simp [htext]
      · exact hfits e he
    · have hget : List.lookup key ((k, text) :: schema') =
          if key = k then some text else schema'.lookup key :=
        Entries.get?_cons k text schema' key
      rw [hget, Entries.get?_cons, hlookup]
      by_cases hk : key = k <;> simp [hk, htext]

theorem exists_schemaOf? {t : Table} (h : ∀ e ∈ t, e.2.text?.isSome = true) :
    ∃ schema, schemaOf? (some (.table t)) = some schema := by
  induction t with
  | nil => exact ⟨[], rfl⟩
  | cons e t ih =>
    obtain ⟨text, htext⟩ := Option.isSome_iff_exists.1 (h e (by simp))
    obtain ⟨schema, hschema⟩ := ih fun e' he' => h e' (by simp [he'])
    exact ⟨(e.1, text) :: schema, by rw [schemaOf?_cons, htext, hschema]; rfl⟩

/-! ## From values to settings -/

/-- The settings at the places that have a default have a value. -/
def IsComplete (root : Raw) : Prop :=
  ∀ p, p.1 ≠ "schema" → kindOf? p ≠ none → valueAt? root p ≠ none

theorem setting?_of_ne_none {α : Type} {t : Table} {key : String}
    (h : Entries.get? t key ≠ none) (convert : Raw → Option α) (default : α) :
    setting? t key convert default = (Entries.get? t key).bind convert := by
  cases hget : Entries.get? t key with
  | none => exact absurd hget h
  | some value => simp [setting?, hget]

variable {root : Raw}

/-- What settings are made of: the values in the two sections, or the defaults, and the schema. -/
theorem ofTable?_eq_some_iff {es : Table} {s : Settings} :
    ofTable? es = some s ↔ ∃ directory search,
      sectionOf? ["host", "port", "search_base"] (Entries.get? es "directory") = some directory ∧
      sectionOf? ["size_limit", "time_limit_secs", "page_size", "escape_values"]
        (Entries.get? es "search") = some search ∧
      setting? directory "host" Raw.text? "" = some s.host ∧
      setting? directory "port" Raw.uint16? 389 = some s.port ∧
      setting? directory "search_base" Raw.text? "" = some s.searchBase ∧
      setting? search "size_limit" Raw.uint32? 50 = some s.sizeLimit ∧
      setting? search "time_limit_secs" Raw.uint64? 30 = some s.timeLimit ∧
      setting? search "page_size" Raw.uint32? 20 = some s.pageSize ∧
      setting? search "escape_values" Raw.bool? false = some s.escapeValues ∧
      schemaOf? (Entries.get? es "schema") = some s.schema := by
  obtain ⟨host, port, searchBase, sizeLimit, timeLimit, pageSize, escapeValues, schema⟩ := s
  simp only [ofTable?, Option.bind_eq_bind, Option.pure_def, Option.bind_eq_some_iff,
    Option.some.injEq, Settings.mk.injEq]
  constructor
  · rintro ⟨directory, hdirectory, search, hsearch, _, h1, _, h2, _, h3, _, h4, _, h5, _, h6, _, h7,
      _, h8, rfl, rfl, rfl, rfl, rfl, rfl, rfl, rfl⟩
    exact ⟨directory, search, hdirectory, hsearch, h1, h2, h3, h4, h5, h6, h7, h8⟩
  · rintro ⟨directory, search, hdirectory, hsearch, h1, h2, h3, h4, h5, h6, h7, h8⟩
    exact ⟨directory, hdirectory, search, hsearch, _, h1, _, h2, _, h3, _, h4, _, h5, _, h6, _, h7,
      _, h8, rfl, rfl, rfl, rfl, rfl, rfl, rfl, rfl⟩

/-- Where every setting with a default has a value, they are made of these values alone. -/
theorem IsComplete.ofTable?_eq_some_iff {es directory search : Table} {s : Settings}
    (hcomplete : IsComplete (.table es))
    (hdirectory : Entries.get? es "directory" = some (.table directory))
    (hsearch : Entries.get? es "search" = some (.table search)) :
    ofTable? es = some s ↔
      (valueAt? (.table es) ("directory", "host")).bind Raw.text? = some s.host ∧
      (valueAt? (.table es) ("directory", "port")).bind Raw.uint16? = some s.port ∧
      (valueAt? (.table es) ("directory", "search_base")).bind Raw.text? = some s.searchBase ∧
      (valueAt? (.table es) ("search", "size_limit")).bind Raw.uint32? = some s.sizeLimit ∧
      (valueAt? (.table es) ("search", "time_limit_secs")).bind Raw.uint64? = some s.timeLimit ∧
      (valueAt? (.table es) ("search", "page_size")).bind Raw.uint32? = some s.pageSize ∧
      (valueAt? (.table es) ("search", "escape_values")).bind Raw.bool? = some s.escapeValues ∧
      schemaOf? (Entries.get? es "schema") = some s.schema := by
  have hdirectoryValue (key : String) :
      valueAt? (.table es) ("directory", key) = Entries.get? directory key :=
    valueAt?_of_get? hdirectory
  have hsearchValue (key : String) :
      valueAt? (.table es) ("search", key) = Entries.get? search key :=
    valueAt?_of_get? hsearch
  have hsetDirectory (key : String) (hkey : kindOf? ("directory", key) ≠ none) :
      Entries.get? directory key ≠ none :=
    hdirectoryValue key ▸ hcomplete ("directory", key) (by simp) hkey
  have hsetSearch (key : String) (hkey : kindOf? ("search", key) ≠ none) :
      Entries.get? search key ≠ none :=
    hsearchValue key ▸ hcomplete ("search", key) (by simp) hkey
  rw [Settings.ofTable?_eq_some_iff, hdirectory, hsearch]
  simp only [sectionOf?, Option.some.injEq, exists_and_left, exists_eq_left', hdirectoryValue,
    hsearchValue, setting?_of_ne_none (hsetDirectory "host" (by decide)),
    setting?_of_ne_none (hsetDirectory "port" (by decide)),
    setting?_of_ne_none (hsetDirectory "search_base" (by decide)),
    setting?_of_ne_none (hsetSearch "size_limit" (by decide)),
    setting?_of_ne_none (hsetSearch "time_limit_secs" (by decide)),
    setting?_of_ne_none (hsetSearch "page_size" (by decide)),
    setting?_of_ne_none (hsetSearch "escape_values" (by decide))]

section Conversion

variable {α : Type} {convert : Raw → Option α} {value? : Option Raw}

theorem isSome_of_bind {value : Raw} {a : α} (h : value?.bind convert = some a)
    (hvalue : value? = some value) : (convert value).isSome = true := by
  subst hvalue
  exact Option.isSome_iff_exists.2 ⟨a, h⟩

theorem exists_bind (hset : value? ≠ none)
    (h : ∀ value, value? = some value → (convert value).isSome = true) :
    ∃ a, value?.bind convert = some a := by
  cases value? with
  | none => exact absurd rfl hset
  | some value => exact Option.isSome_iff_exists.1 (h value rfl)

end Conversion

theorem IsSectioned.exists_sections (h : IsSectioned root) :
    ∃ es directory search schema, root = .table es ∧
      Entries.get? es "directory" = some (.table directory) ∧
      Entries.get? es "search" = some (.table search) ∧
      Entries.get? es "schema" = some (.table schema) ∧ Entries.Distinct schema := by
  obtain ⟨es, rfl, hes⟩ := h
  obtain ⟨directory, hdirectory, -⟩ := hes "directory" (by decide)
  obtain ⟨search, hsearch, -⟩ := hes "search" (by decide)
  obtain ⟨schema, hschema, hdistinct⟩ := hes "schema" (by decide)
  exact ⟨es, directory, search, schema, rfl, hdirectory, hsearch, hschema, hdistinct⟩

/-- The settings made of raw ones are their values converted, each by itself. -/
theorem isConversion_of_ofTable? (hroot : IsSectioned root) (hcomplete : IsComplete root)
    {s : Settings} (h : ofTable? (entriesOf (some root)) = some s) :
    IsConversion (valueAt? root) s := by
  obtain ⟨es, directory, search, schema, rfl, hdirectory, hsearch, hschema, hdistinct⟩ :=
    hroot.exists_sections
  obtain ⟨h1, h2, h3, h4, h5, h6, h7, h8⟩ :=
    (hcomplete.ofTable?_eq_some_iff hdirectory hsearch).1 h
  rw [hschema] at h8
  obtain ⟨hkeys, -, hlookup⟩ := schemaOf?_eq_some h8
  refine ⟨h1, h2, h3, h4, h5, h6, h7, fun key => ?_, ?_⟩
  · rw [hlookup, valueAt?_of_get? hschema]
  · unfold Entries.Distinct
    rw [hkeys]
    exact hdistinct

/-- Settings are made of raw ones exactly if each of their values can be converted. -/
theorem exists_ofTable?_iff (hroot : IsSectioned root) (hcomplete : IsComplete root) :
    (∃ s, ofTable? (entriesOf (some root)) = some s) ↔
      ∀ p kind value, kindOf? p = some kind → valueAt? root p = some value →
        kind.fits value = true := by
  obtain ⟨es, directory, search, schema, rfl, hdirectory, hsearch, hschema, hdistinct⟩ :=
    hroot.exists_sections
  constructor
  · rintro ⟨s, hs⟩ p kind value hkind hvalue
    obtain ⟨h1, h2, h3, h4, h5, h6, h7, h8⟩ :=
      (hcomplete.ofTable?_eq_some_iff hdirectory hsearch).1 hs
    rw [hschema] at h8
    obtain ⟨-, hfits, -⟩ := schemaOf?_eq_some h8
    unfold kindOf? at hkind
    split at hkind <;> cases hkind
    · exact isSome_of_bind h1 hvalue
    · exact isSome_of_bind h2 hvalue
    · exact isSome_of_bind h3 hvalue
    · exact isSome_of_bind h4 hvalue
    · exact isSome_of_bind h5 hvalue
    · exact isSome_of_bind h6 hvalue
    · exact isSome_of_bind h7 hvalue
    · rw [valueAt?_of_get? hschema] at hvalue
      exact hfits _ (Entries.mem_of_get?_eq_some hvalue)
  · intro hfits
    obtain ⟨host, h1⟩ := exists_bind (hcomplete ("directory", "host") (by decide) (by decide))
      (hfits _ .text · rfl)
    obtain ⟨port, h2⟩ := exists_bind (hcomplete ("directory", "port") (by decide) (by decide))
      (hfits _ .uint16 · rfl)
    obtain ⟨searchBase, h3⟩ :=
      exists_bind (hcomplete ("directory", "search_base") (by decide) (by decide))
        (hfits _ .text · rfl)
    obtain ⟨sizeLimit, h4⟩ :=
      exists_bind (hcomplete ("search", "size_limit") (by decide) (by decide))
        (hfits _ .uint32 · rfl)
    obtain ⟨timeLimit, h5⟩ :=
      exists_bind (hcomplete ("search", "time_limit_secs") (by decide) (by decide))
        (hfits _ .uint64 · rfl)
    obtain ⟨pageSize, h6⟩ := exists_bind (hcomplete ("search", "page_size") (by decide) (by decide))
      (hfits _ .uint32 · rfl)
    obtain ⟨escapeValues, h7⟩ :=
      exists_bind (hcomplete ("search", "escape_values") (by decide) (by decide))
        (hfits _ .bool · rfl)
    obtain ⟨declarations, h8⟩ := exists_schemaOf? fun e he =>
      hfits ("schema", e.1) .text e.2 rfl
        ((valueAt?_of_get? hschema).trans (hdistinct.get?_eq_some_iff.2 he))
    rw [← hschema] at h8
    exact ⟨⟨host, port, searchBase, sizeLimit, timeLimit, pageSize, escapeValues, declarations⟩,
      (hcomplete.ofTable?_eq_some_iff hdirectory hsearch).2 ⟨h1, h2, h3, h4, h5, h6, h7, h8⟩⟩

/-! ## Layers -/

/-- A file and an environment that set values at places, each place at most once. -/
structure IsLayered (file : Table) (environment : List Variable) : Prop where
  plain : IsPlain file
  once : (Raw.table file).KeysOnce
  environment : IsPlainEnvironment environment

theorem isComplete_defaultRoot : IsComplete defaultRoot := by
  intro p hp hkind
  unfold kindOf? at hkind
  split at hkind
  · decide
  · decide
  · decide
  · decide
  · decide
  · decide
  · decide
  · exact absurd rfl hp
  · exact absurd rfl hkind

variable {file file' : Table} {environment environment' : List Variable}

theorem IsLayered.complete (h : IsLayered file environment) :
    let root := environment.foldl layVariable (file.foldl layEntry defaultRoot)
    IsSectioned root ∧ IsComplete root ∧ valueAt? root = effective? file environment := by
  intro root
  obtain ⟨hsectioned, hvalue⟩ := valueAt?_layers h.plain h.once h.environment
  refine ⟨hsectioned, fun p hp hkind => ?_, funext hvalue⟩
  have hdefault := isComplete_defaultRoot p hp hkind
  rw [hvalue, effective?]
  simp [hdefault]

theorem IsLayered.isConversion (h : IsLayered file environment) {s : Settings}
    (hs : layered? file environment = some s) : IsConversion (effective? file environment) s := by
  obtain ⟨hsectioned, hcomplete, hvalue⟩ := h.complete
  exact hvalue ▸ isConversion_of_ofTable? hsectioned hcomplete hs

theorem IsLayered.exists_layered?_iff (h : IsLayered file environment) :
    (∃ s, layered? file environment = some s) ↔
      ∀ p kind value, kindOf? p = some kind → effective? file environment p = some value →
        kind.fits value = true := by
  obtain ⟨hsectioned, hcomplete, hvalue⟩ := h.complete
  exact hvalue ▸ exists_ofTable?_iff hsectioned hcomplete

/-! ## What has no part in it -/

/-- The values of a file with their places, in the order given. -/
def members (file : Table) : List (Place × Raw) :=
  file.flatMap fun e => (entriesOf (some e.2)).map fun m => ((e.1, m.1), m.2)

theorem distinct_entriesOf {r : Raw} (h : r.KeysOnce) : Entries.Distinct (entriesOf (some r)) := by
  cases h with
  | single h =>
    cases r with
    | table entries => exact absurd rfl (h entries)
    | null | bool | integer | float | text | list => exact Entries.distinct_nil
  | table hdistinct hvalues => exact hdistinct

/-- In a file with each key once the value at a place is the member with this place. -/
theorem mem_members_iff (honce : (Raw.table file).KeysOnce) {p : Place} {value : Raw} :
    (p, value) ∈ members file ↔ valueAt? (.table file) p = some value := by
  cases honce with
  | single h => exact absurd rfl (h file)
  | table hdistinct hvalues =>
    simp only [members, List.mem_flatMap, List.mem_map]
    constructor
    · rintro ⟨e, he, m, hm, heq⟩
      obtain ⟨rfl, rfl⟩ := Prod.mk.inj heq
      have he' : Entries.get? file e.1 = some e.2 := hdistinct.get?_eq_some_iff.2 he
      have hm' : Entries.get? (entriesOf (some e.2)) m.1 = some m.2 :=
        (distinct_entriesOf (hvalues e he)).get?_eq_some_iff.2 hm
      rw [valueAt?, entriesOf, he', hm']
    · intro h
      cases hfile : Entries.get? file p.1 with
      | none =>
        rw [valueAt?_of_get?_eq_none hfile] at h
        cases h
      | some r =>
        rw [valueAt?, entriesOf, hfile] at h
        exact ⟨(p.1, r), Entries.mem_of_get?_eq_some hfile, (p.2, value),
          Entries.mem_of_get?_eq_some h, rfl⟩

/-- In an environment without repeated names the value at a place is that of the variable that
names it. -/
theorem environmentValue?_eq_some_iff (h : IsPlainEnvironment environment) {p : Place}
    {value : Raw} :
    environmentValue? environment p = some value ↔
      ∃ v ∈ environment, Names v.1 p ∧ valueOf v.2 = value := by
  induction environment with
  | nil => simp [environmentValue?]
  | cons v environment ih =>
    obtain ⟨hnames, hdistinct⟩ := h
    obtain ⟨hnew, hdistinct'⟩ := List.pairwise_cons.1 hdistinct
    rw [environmentValue?_cons]
    by_cases hv : Names v.1 p
    · rw [if_pos hv]
      constructor
      · intro hvalue
        exact ⟨v, by simp, hv, Option.some.inj hvalue⟩
      · rintro ⟨w, hw, hw', rfl⟩
        rcases List.mem_cons.1 hw with rfl | hw
        · rfl
        · exact absurd (hv.fold_eq.trans hw'.fold_eq.symm) (hnew w hw hv.counts hw'.counts)
    · rw [if_neg hv, ih ⟨fun w hw => hnames w (List.mem_cons_of_mem _ hw), hdistinct'⟩]
      simp [hv]

/-- Only the values at a place have a part in the effective one. -/
theorem effective?_congr (h : IsLayered file environment) (h' : IsLayered file' environment')
    {p : Place} (hfile : ∀ value, (p, value) ∈ members file' ↔ (p, value) ∈ members file)
    (henvironment : ∀ v : Variable, Names v.1 p → (v ∈ environment' ↔ v ∈ environment)) :
    effective? file' environment' p = effective? file environment p := by
  have hfilevalue : valueAt? (.table file') p = valueAt? (.table file) p := by
    refine Option.ext fun value => ?_
    rw [← mem_members_iff h'.once, ← mem_members_iff h.once, hfile]
  have hvalue : environmentValue? environment' p = environmentValue? environment p := by
    refine Option.ext fun value => ?_
    rw [environmentValue?_eq_some_iff h'.environment, environmentValue?_eq_some_iff h.environment]
    constructor
    · rintro ⟨v, hv, hnames, hvalue⟩
      exact ⟨v, (henvironment v hnames).1 hv, hnames, hvalue⟩
    · rintro ⟨v, hv, hnames, hvalue⟩
      exact ⟨v, (henvironment v hnames).2 hv, hnames, hvalue⟩
  rw [effective?, effective?, hvalue, hfilevalue]

/-- Settings converted from the same values are alike. -/
theorem IsConversion.alike {value? value?' : Place → Option Raw} {s t : Settings}
    (hs : IsConversion value? s) (ht : IsConversion value?' t)
    (h : ∀ p, kindOf? p ≠ none → value?' p = value? p) : Alike s t := by
  have same : ∀ {α : Type} {convert : Raw → Option α} {a b : α} {p : Place}, kindOf? p ≠ none →
      (value? p).bind convert = some a → (value?' p).bind convert = some b → b = a := by
    intro α convert a b p hp ha hb
    rw [h p hp, ha] at hb
    exact (Option.some.inj hb).symm
  have hschema : s.schema.Perm t.schema := by
    have hs' : s.schema.Nodup := List.Nodup.of_map Prod.fst hs.distinct
    have ht' : t.schema.Nodup := List.Nodup.of_map Prod.fst ht.distinct
    refine (List.perm_ext_iff_of_nodup hs' ht').2 fun e => ?_
    have hlookup : s.schema.lookup e.1 = t.schema.lookup e.1 := by
      rw [hs.schema, ht.schema, h ("schema", e.1) (Option.some_ne_none _)]
    rw [← hs.distinct.get?_eq_some_iff, ← ht.distinct.get?_eq_some_iff]
    show s.schema.lookup e.1 = some e.2 ↔ t.schema.lookup e.1 = some e.2
    rw [hlookup]
  refine ⟨hschema, ?_⟩
  obtain ⟨host, port, searchBase, sizeLimit, timeLimit, pageSize, escapeValues, schema⟩ := s
  obtain ⟨host', port', searchBase', sizeLimit', timeLimit', pageSize', escapeValues', schema'⟩ := t
  obtain rfl := same (by decide) hs.host ht.host
  obtain rfl := same (by decide) hs.port ht.port
  obtain rfl := same (by decide) hs.searchBase ht.searchBase
  obtain rfl := same (by decide) hs.sizeLimit ht.sizeLimit
  obtain rfl := same (by decide) hs.timeLimit ht.timeLimit
  obtain rfl := same (by decide) hs.pageSize ht.pageSize
  obtain rfl := same (by decide) hs.escapeValues ht.escapeValues
  rfl

/-! ## Loading -/

/-- A TOML or JSON document that is read as a file of single values in the sections. -/
structure IsDocument (document : Format × String) (file : Table) : Prop where
  format : document.1 = .toml ∨ document.1 = .json
  read : readFile? document.1 document.2 = some file
  plain : IsPlain file

theorem IsDocument.load?_eq {document : Format × String} (h : IsDocument document file)
    (environment : List Variable) :
    load? (some document) environment = layered? file environment := by
  obtain ⟨format, text⟩ := document
  rw [load?, h.read]
  rfl

theorem IsDocument.isLayered {document : Format × String} (h : IsDocument document file)
    (henvironment : IsPlainEnvironment environment) : IsLayered file environment :=
  ⟨h.plain, keysOnce_of_readFile? h.format h.read, henvironment⟩

/-- **Settings are loaded key by key**: they load if every effective value fits its setting, each
setting is its own effective value converted, and only the members and variables for settings have
a part in it. -/
theorem load?_layers {document : Format × String} (h : IsDocument document file)
    (henvironment : IsPlainEnvironment environment) :
    ((∃ s, load? (some document) environment = some s) ↔
      ∀ p kind value, kindOf? p = some kind → effective? file environment p = some value →
        kind.fits value = true) ∧
    (∀ s, load? (some document) environment = some s →
      IsConversion (effective? file environment) s) ∧
    ∀ document' file' environment', IsDocument document' file' →
      IsPlainEnvironment environment' →
      (∀ p value, kindOf? p ≠ none → ((p, value) ∈ members file' ↔ (p, value) ∈ members file)) →
      (∀ v p, kindOf? p ≠ none → Names v.1 p → (v ∈ environment' ↔ v ∈ environment)) →
        Option.Rel Alike (load? (some document) environment)
          (load? (some document') environment') := by
  have hlayered := h.isLayered henvironment
  rw [h.load?_eq]
  refine ⟨hlayered.exists_layered?_iff, fun s hs => hlayered.isConversion hs, ?_⟩
  intro document' file' environment' h' henvironment' hmembers hvariables
  have hlayered' := h'.isLayered henvironment'
  rw [h'.load?_eq]
  have hvalue : ∀ p, kindOf? p ≠ none →
      effective? file' environment' p = effective? file environment p := fun p hp =>
    effective?_congr hlayered hlayered' (hmembers p · hp) (hvariables · p hp)
  have hexists : (∃ s, layered? file environment = some s) ↔
      ∃ s, layered? file' environment' = some s := by
    rw [hlayered.exists_layered?_iff, hlayered'.exists_layered?_iff]
    refine forall₄_congr fun p kind value hkind => ?_
    rw [hvalue p (by rw [hkind]; exact Option.some_ne_none kind)]
  cases hs : layered? file environment with
  | none =>
    cases ht : layered? file' environment' with
    | none => exact .none
    | some t =>
      obtain ⟨s, hs'⟩ := hexists.2 ⟨t, ht⟩
      rw [hs] at hs'
      cases hs'
  | some s =>
    obtain ⟨t, ht⟩ := hexists.1 ⟨s, hs⟩
    rw [ht]
    exact .some ((hlayered.isConversion hs).alike (hlayered'.isConversion ht) hvalue)

/-- A variable stands over the file and the file over the default. What is no setting makes no
difference. -/
theorem load?_layers_page_size :
    let text := "[search]\npage_size = 7\nsize_limit = 9\n\"x.y\" = true\n"
    let environment := [("dirsearch__Search__PAGE_SIZE", "8"), ("PATH", "/bin")]
    (∃ file, IsDocument (.toml, text) file) ∧ IsPlainEnvironment environment ∧
      (∃ s, load? (some (.toml, text)) environment = some s ∧
        s.pageSize = 8 ∧ s.sizeLimit = 9 ∧ s.port = 389) ∧
      Option.Rel Alike (load? (some (.toml, text)) environment)
        (load? (some (.toml, text)) environment.dropLast) := by
  intro text environment
  have hread : (readFile? .toml text).isSome = true := by decide +kernel
  obtain ⟨file, hfile⟩ := Option.isSome_iff_exists.1 hread
  have h : IsDocument (.toml, text) file := by
    refine ⟨.inl rfl, hfile, ?_⟩
    have hplain : IsPlain ((readFile? .toml text).getD []) := by decide +kernel
    rwa [hfile] at hplain
  have henvironment : IsPlainEnvironment environment := by
    refine ⟨fun v hv hcounts => ?_, by decide +kernel⟩
    simp only [environment, List.mem_cons, List.not_mem_nil, or_false] at hv
    rcases hv with rfl | rfl
    · exact ⟨("search", "page_size"), by decide +kernel⟩
    · exact absurd hcounts (by decide +kernel)
  have henvironment' : IsPlainEnvironment environment.dropLast :=
    ⟨fun v hv => henvironment.names v (List.dropLast_subset environment hv),
      henvironment.distinct.sublist (List.dropLast_sublist environment)⟩
  obtain ⟨-, hconversion, halike⟩ := load?_layers h henvironment
  refine ⟨⟨file, h⟩, henvironment, ?_,
    halike _ file _ h henvironment' (fun p value _ => Iff.rfl) fun v p _ hnames => ?_⟩
  · have hs : (load? (some (.toml, text)) environment).isSome = true := by decide +kernel
    obtain ⟨s, hs⟩ := Option.isSome_iff_exists.1 hs
    have hvalues : ((readFile? .toml text).getD []) = file := by rw [hfile]; rfl
    have hpageSize : (effective? ((readFile? .toml text).getD []) environment
        ("search", "page_size")).bind Raw.uint32? = some 8 := by decide +kernel
    have hsizeLimit : (effective? ((readFile? .toml text).getD []) environment
        ("search", "size_limit")).bind Raw.uint32? = some 9 := by decide +kernel
    have hport : (effective? ((readFile? .toml text).getD []) environment
        ("directory", "port")).bind Raw.uint16? = some 389 := by decide +kernel
    rw [hvalues] at hpageSize hsizeLimit hport
    obtain ⟨-, hs2, -, hs4, -, hs6, -⟩ := hconversion s hs
    exact ⟨s, hs, Option.some.inj (hs6.symm.trans hpageSize),
      Option.some.inj (hs4.symm.trans hsizeLimit), Option.some.inj (hs2.symm.trans hport)⟩
  · have hne : v ≠ ("PATH", "/bin") := by
      rintro rfl
      exact absurd hnames.counts (by decide +kernel)
    simp [environment, hne]

end DirectoryLookup.Settings
