import DirectoryLookup.Proofs.Settings.Keys
import DirectoryLookup.Proofs.Settings.Names

/-!
# Layers of settings

The defaults, a file and the environment are laid over one another. Told place by place, the value
at a place is the environment's if a variable names the place, else the file's, else the default
(`effective?`).

**Theorem (`valueAt?_foldl_layVariable`, `valueAt?_foldl_layEntry`).** That is what laying the file
over the defaults, and the environment over the file, comes to. It needs files that hold single
values in the sections (`IsPlain`) and environments whose variables each name a place of their own
(`IsPlainEnvironment`), since a variable or key may also be a longer path.

The invariant is that the settings stay a table of sections in which each key stands once
(`IsSectioned`). One entry of the file, or one variable, replaces the table of one section.
-/

namespace DirectoryLookup.Settings

/-! ## Values by place -/

/-- The value at a place of raw settings. -/
def valueAt? (root : Raw) (p : Place) : Option Raw :=
  Entries.get? (entriesOf (Entries.get? (entriesOf (some root)) p.1)) p.2

/-- A value that holds no others. -/
inductive Raw.IsSingle : Raw → Prop
  | bool (b : Bool) : IsSingle (.bool b)
  | integer (n : Int) : IsSingle (.integer n)
  | float (x : Number.Double) : IsSingle (.float x)
  | text (s : String) : IsSingle (.text s)

/-- The settings are a table with a table for each section, in which each key stands once. -/
def IsSectioned (root : Raw) : Prop :=
  ∃ es, root = .table es ∧
    ∀ s ∈ sections, ∃ t, Entries.get? es s = some (.table t) ∧ Entries.Distinct t

/-- The file holds single values, under any keys, in tables for the sections. -/
def IsPlain (file : Table) : Prop :=
  ∀ e ∈ file, e.1 ∈ sections ∧ ∃ ms, e.2 = .table ms ∧ ∀ m ∈ ms, m.2.IsSingle

/-- Each variable that counts names a place, and no two of them differ in case only. -/
structure IsPlainEnvironment (environment : List Variable) : Prop where
  names : ∀ v ∈ environment, counts v.1 = true → ∃ p, Names v.1 p
  distinct : environment.Pairwise fun v w =>
    counts v.1 = true → counts w.1 = true → Text.fold v.1 ≠ Text.fold w.1

instance (r : Raw) : Decidable r.IsSingle :=
  match r with
  | .bool b => isTrue (.bool b)
  | .integer n => isTrue (.integer n)
  | .float x => isTrue (.float x)
  | .text s => isTrue (.text s)
  | .null | .list _ | .table _ => isFalse nofun

instance (r : Raw) : Decidable (∃ ms, r = .table ms ∧ ∀ m ∈ ms, m.2.IsSingle) :=
  match r with
  | .table ms =>
    decidable_of_iff (∀ m ∈ ms, m.2.IsSingle)
      ⟨fun h => ⟨ms, rfl, h⟩, fun ⟨_, heq, h⟩ => Raw.table.inj heq ▸ h⟩
  | .null | .bool _ | .integer _ | .float _ | .text _ | .list _ => isFalse nofun

instance (file : Table) : Decidable (IsPlain file) :=
  inferInstanceAs (Decidable (∀ e ∈ file, e.1 ∈ sections ∧ _))

/-- The value that the environment sets at a place. -/
def environmentValue? (environment : List Variable) (p : Place) : Option Raw :=
  (environment.find? fun v => Names v.1 p).map fun v => valueOf v.2

/-- The raw settings that stand for the defaults. -/
def defaultRoot : Raw :=
  .table (toTable {})

/-- The effective value at a place: the environment's, else the file's, else the default. -/
def effective? (file : Table) (environment : List Variable) (p : Place) : Option Raw :=
  (environmentValue? environment p).or ((valueAt? (.table file) p).or (valueAt? defaultRoot p))

variable {root : Raw} {s : String} {p : Place}

theorem isSectioned_defaultRoot : IsSectioned defaultRoot := by
  refine ⟨_, rfl, fun s hs => ?_⟩
  simp only [sections, List.mem_cons, List.not_mem_nil, or_false] at hs
  rcases hs with rfl | rfl | rfl
  · exact ⟨_, rfl, by simp [Entries.Distinct]⟩
  · exact ⟨_, rfl, by simp [Entries.Distinct]⟩
  · exact ⟨_, rfl, by simp [Entries.Distinct]⟩

theorem Raw.IsSingle.over_eq {value : Raw} (h : value.IsSingle) (lower : Option Raw) :
    value.over lower = value := by
  cases h <;> rfl

theorem isSingle_valueOf (text : String) : (valueOf text).IsSingle := by
  unfold valueOf
  split
  · exact .bool true
  · split
    · exact .bool false
    · split
      · exact .integer _
      · split
        · exact .float _
        · exact .text _

/-! ## The table of one section -/

theorem valueAt?_of_get? {es t : Table} (h : Entries.get? es p.1 = some (.table t)) :
    valueAt? (.table es) p = Entries.get? t p.2 := by
  simp [valueAt?, entriesOf, h]

/-- A value at a place stands in a table in a table. -/
theorem exists_table_of_valueAt? {p : Place} {value : Raw} (h : valueAt? root p = some value) :
    ∃ es t, root = .table es ∧ Entries.get? es p.1 = some (.table t) ∧
      Entries.get? t p.2 = some value := by
  have exists_table : ∀ {r : Option Raw} {key : String} {value : Raw},
      Entries.get? (entriesOf r) key = some value →
        ∃ t, r = some (.table t) ∧ Entries.get? t key = some value := by
    intro r key value h
    unfold entriesOf at h
    split at h
    · exact ⟨_, rfl, h⟩
    · cases h
  obtain ⟨t, hsection, ht⟩ := exists_table h
  obtain ⟨es, hroot, hes⟩ := exists_table hsection
  exact ⟨es, t, Option.some.inj hroot, hes, ht⟩

theorem valueAt?_of_get?_eq_none {es : Table} (h : Entries.get? es p.1 = none) :
    valueAt? (.table es) p = none := by
  rw [valueAt?, entriesOf, h]
  rfl

theorem valueAt?_cons (s : String) (ms file : Table) (p : Place) :
    valueAt? (.table ((s, .table ms) :: file)) p =
      if p.1 = s then Entries.get? ms p.2 else valueAt? (.table file) p := by
  unfold valueAt?
  rw [entriesOf, entriesOf, Entries.get?_cons]
  by_cases h : p.1 = s <;> simp [h, entriesOf]

theorem valueAt?_put (es : Table) (s : String) (t : Table) (p : Place) :
    valueAt? (.table (Entries.put es s (.table t))) p =
      if p.1 = s then Entries.get? t p.2 else valueAt? (.table es) p := by
  unfold valueAt?
  rw [entriesOf, entriesOf, Entries.get?_put]
  by_cases h : p.1 = s <;> simp [h, entriesOf]

theorem isSectioned_put {es t : Table} (h : IsSectioned (.table es)) (ht : Entries.Distinct t) :
    IsSectioned (.table (Entries.put es s (.table t))) := by
  obtain ⟨es', heq, hes⟩ := h
  obtain rfl := Raw.table.inj heq
  refine ⟨_, rfl, fun s' hs' => ?_⟩
  rw [Entries.get?_put]
  by_cases hs : s' = s
  · exact ⟨t, if_pos hs, ht⟩
  · obtain ⟨t', ht', hdistinct⟩ := hes s' hs'
    exact ⟨t', by rw [if_neg hs, ht'], hdistinct⟩

/-! ## The file -/

/-- Entries with single values, each key once, over what a table holds. -/
theorem get?_overlay {ms : Table} (hsingle : ∀ m ∈ ms, m.2.IsSingle) (hms : Entries.Distinct ms)
    (lower : Table) (key : String) :
    Entries.get? (overlay lower ms) key =
      (Entries.get? ms key).or (Entries.get? lower key) := by
  induction ms generalizing lower with
  | nil => rfl
  | cons m ms ih =>
    obtain ⟨k, v⟩ := m
    obtain ⟨hnew, hms⟩ := List.nodup_cons.1 hms
    rw [overlay, (hsingle (k, v) (by simp)).over_eq, ih (fun m hm => hsingle m (by simp [hm])) hms,
      Entries.get?_put, Entries.get?_cons]
    by_cases h : key = k
    · subst h
      simp [Entries.get?_eq_none hnew]
    · simp [h]

theorem distinct_overlay {lower : Table} (h : Entries.Distinct lower) (ms : Table) :
    Entries.Distinct (overlay lower ms) := by
  induction ms generalizing lower with
  | nil => exact h
  | cons m ms ih =>
    rw [overlay]
    exact ih (h.put _ _)

theorem layEntry_section (hs : s ∈ sections) (es ms : Table) :
    layEntry (.table es) (s, .table ms) =
      .table (Entries.put es s (.table (overlay (entriesOf (Entries.get? es s)) ms))) := by
  have hpath : pathOf? s.toList = some [.key s] := by
    obtain ⟨hne, -, hchars⟩ := isKeyChar_of_mem_sections hs
    rw [pathOf?_key hne hchars, String.ofList_toList]
  rw [layEntry, hpath]
  simp [layAt, Raw.over, entriesOf]

/-- **One entry of the file** lays the values of its section over the settings. -/
theorem valueAt?_layEntry {ms : Table} (hs : s ∈ sections) (hsingle : ∀ m ∈ ms, m.2.IsSingle)
    (hms : Entries.Distinct ms) (hroot : IsSectioned root) :
    IsSectioned (layEntry root (s, .table ms)) ∧
      ∀ p, valueAt? (layEntry root (s, .table ms)) p =
        if p.1 = s then (Entries.get? ms p.2).or (valueAt? root p) else valueAt? root p := by
  obtain ⟨es, rfl, hes⟩ := hroot
  obtain ⟨t, ht, htdistinct⟩ := hes s hs
  have hlower : entriesOf (Entries.get? es s) = t := by rw [ht]; rfl
  rw [layEntry_section hs, hlower]
  refine ⟨isSectioned_put ⟨es, rfl, hes⟩ (distinct_overlay htdistinct ms), fun p => ?_⟩
  rw [valueAt?_put]
  by_cases hp : p.1 = s
  · have hvalue : valueAt? (.table es) p = Entries.get? t p.2 := valueAt?_of_get? (hp ▸ ht)
    rw [if_pos hp, if_pos hp, get?_overlay hsingle hms, hvalue]
  · rw [if_neg hp, if_neg hp]

/-- **The file over the settings**: its values stand where it has one. -/
theorem valueAt?_foldl_layEntry {file : Table} (hplain : IsPlain file)
    (honce : (Raw.table file).KeysOnce) (hroot : IsSectioned root) :
    IsSectioned (file.foldl layEntry root) ∧
      ∀ p, valueAt? (file.foldl layEntry root) p =
        (valueAt? (.table file) p).or (valueAt? root p) := by
  induction file generalizing root with
  | nil => exact ⟨hroot, fun p => rfl⟩
  | cons e file ih =>
    obtain ⟨s, value⟩ := e
    obtain ⟨hs, ms, hms, hsingle⟩ := hplain (s, value) (by simp)
    obtain rfl : value = .table ms := hms
    obtain ⟨hdistinct, hvalues⟩ := honce.of_table
    obtain ⟨hnew, hdistinct'⟩ := List.nodup_cons.1 hdistinct
    have honce' : (Raw.table file).KeysOnce :=
      .table hdistinct' fun e he => hvalues e (List.mem_cons_of_mem _ he)
    obtain ⟨hmsdistinct, -⟩ := (hvalues (s, .table ms) (by simp)).of_table
    obtain ⟨hlaid, hlaidvalue⟩ := valueAt?_layEntry hs hsingle hmsdistinct hroot
    obtain ⟨hsectioned, hvalue⟩ :=
      ih (fun e he => hplain e (List.mem_cons_of_mem _ he)) honce' hlaid
    refine ⟨hsectioned, fun p => ?_⟩
    rw [List.foldl_cons, hvalue, hlaidvalue, valueAt?_cons]
    by_cases hp : p.1 = s
    · -- No later entry has the same section.
      have hfile : valueAt? (.table file) p = none :=
        valueAt?_of_get?_eq_none (Entries.get?_eq_none (hp ▸ hnew))
      rw [if_pos hp, if_pos hp, hfile, Option.none_or]
    · rw [if_neg hp, if_neg hp]

/-! ## The environment -/

theorem layVariable_of_names {v : Variable} (h : Names v.1 p) (es : Table) :
    layVariable (.table es) v =
      .table (Entries.put es p.1
        (.table (Entries.put (entriesOf (Entries.get? es p.1)) p.2 (valueOf v.2)))) := by
  rw [layVariable, h.variablePath?_eq]
  simp [layAt, (isSingle_valueOf v.2).over_eq, entriesOf]

theorem environmentValue?_cons (v : Variable) (environment : List Variable) (p : Place) :
    environmentValue? (v :: environment) p =
      if Names v.1 p then some (valueOf v.2) else environmentValue? environment p := by
  unfold environmentValue?
  by_cases h : Names v.1 p <;> simp [h]

theorem layVariable_of_not_counts {v : Variable} (h : counts v.1 = false) (root : Raw) :
    layVariable root v = root := by
  rw [layVariable, variablePath?_of_not_counts h]

/-- **One variable** lays its value over the place that it names. -/
theorem valueAt?_layVariable {v : Variable} (hnames : counts v.1 = true → ∃ p, Names v.1 p)
    (hroot : IsSectioned root) :
    IsSectioned (layVariable root v) ∧
      ∀ p, valueAt? (layVariable root v) p =
        if Names v.1 p then some (valueOf v.2) else valueAt? root p := by
  cases hcounts : counts v.1 with
  | false =>
    rw [layVariable_of_not_counts hcounts]
    refine ⟨hroot, fun p => ?_⟩
    have hnot : ¬Names v.1 p := fun h => by simp [h.counts] at hcounts
    rw [if_neg hnot]
  | true =>
    obtain ⟨q, hq⟩ := hnames hcounts
    obtain ⟨es, rfl, hes⟩ := hroot
    obtain ⟨t, ht, htdistinct⟩ := hes q.1 hq.mem_sections
    have hlower : entriesOf (Entries.get? es q.1) = t := by rw [ht]; rfl
    rw [layVariable_of_names hq, hlower]
    refine ⟨isSectioned_put ⟨es, rfl, hes⟩ (htdistinct.put q.2 (valueOf v.2)), fun p => ?_⟩
    rw [valueAt?_put, Entries.get?_put]
    by_cases hp : p = q
    · subst hp
      rw [if_pos rfl, if_pos rfl, if_pos hq]
    · have hnot : ¬Names v.1 p := fun h => hp (h.unique hq)
      rw [if_neg hnot]
      by_cases h1 : p.1 = q.1
      · have h2 : p.2 ≠ q.2 := fun h2 => hp (Prod.ext h1 h2)
        have hvalue : valueAt? (.table es) p = Entries.get? t p.2 := valueAt?_of_get? (h1 ▸ ht)
        rw [if_pos h1, if_neg h2, hvalue]
      · rw [if_neg h1]

/-- No other variable of the environment names the place that a variable in front of it names. -/
theorem IsPlainEnvironment.environmentValue?_eq_none {v : Variable} {environment : List Variable}
    (h : IsPlainEnvironment (v :: environment)) (hp : Names v.1 p) :
    environmentValue? environment p = none := by
  rw [environmentValue?, Option.map_eq_none_iff, List.find?_eq_none]
  intro w hw hnames
  have hw' : Names w.1 p := by simpa using hnames
  exact (List.pairwise_cons.1 h.distinct).1 w hw hp.counts hw'.counts
    (hp.fold_eq.trans hw'.fold_eq.symm)

/-- **The environment over the settings**: its values stand where a variable names the place. -/
theorem valueAt?_foldl_layVariable {environment : List Variable}
    (henvironment : IsPlainEnvironment environment) (hroot : IsSectioned root) :
    IsSectioned (environment.foldl layVariable root) ∧
      ∀ p, valueAt? (environment.foldl layVariable root) p =
        (environmentValue? environment p).or (valueAt? root p) := by
  induction environment generalizing root with
  | nil => exact ⟨hroot, fun p => rfl⟩
  | cons v environment ih =>
    have henvironment' : IsPlainEnvironment environment :=
      ⟨fun w hw => henvironment.names w (List.mem_cons_of_mem _ hw),
        (List.pairwise_cons.1 henvironment.distinct).2⟩
    obtain ⟨hlaid, hlaidvalue⟩ := valueAt?_layVariable (henvironment.names v (by simp)) hroot
    obtain ⟨hsectioned, hvalue⟩ := ih henvironment' hlaid
    refine ⟨hsectioned, fun p => ?_⟩
    rw [List.foldl_cons, hvalue, hlaidvalue, environmentValue?_cons]
    by_cases hp : Names v.1 p
    · rw [if_pos hp, if_pos hp, henvironment.environmentValue?_eq_none hp, Option.none_or,
        Option.some_or]
    · rw [if_neg hp, if_neg hp]

/-! ## All layers -/

/-- **All layers**: the value at a place is the effective one. -/
theorem valueAt?_layers {file : Table} {environment : List Variable} (hplain : IsPlain file)
    (honce : (Raw.table file).KeysOnce) (henvironment : IsPlainEnvironment environment) :
    let root := environment.foldl layVariable (file.foldl layEntry defaultRoot)
    IsSectioned root ∧ ∀ p, valueAt? root p = effective? file environment p := by
  intro root
  obtain ⟨hfile, hfilevalue⟩ := valueAt?_foldl_layEntry hplain honce isSectioned_defaultRoot
  obtain ⟨hroot, hvalue⟩ := valueAt?_foldl_layVariable henvironment hfile
  refine ⟨hroot, fun p => ?_⟩
  rw [hvalue, hfilevalue]
  rfl

end DirectoryLookup.Settings
