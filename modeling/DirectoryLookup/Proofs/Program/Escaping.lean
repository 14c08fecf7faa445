import DirectoryLookup.Proofs.Search.Calls
import DirectoryLookup.Proofs.Settings.Loading
import DirectoryLookup.Proofs.Settings.Order

/-!
# Requests for escaping

A settings file asks for escaping if the setting for it is a yes once the file is laid over the
defaults.

**Main theorem (`uses_iff_of_asksForEscaping`).** If a file asks for escaping, no variable takes the
place of this setting, and the settings load, then the filter that the program prints or searches
with has its values escaped. If the settings do not load, whatever the setting at fault, then the
program goes on with the defaults, and its filter has the values as they are.

The entries of a file may also be laid in another order than the file has them in. If they ask for
escaping in the order in which they are laid, they get it (`escapeValues_of_isAskedBy`). If a single
key leads into the section of the setting, they ask for it in every order or in none
(`escapeValues_of_perm`). So a document of single values gets escaping in any order if the setting
is a yes in it (`IsDocument.escapeValues`).

*Summary of the proof.* The invariant is that the setting has a value that does not load as a no
(`StandsForEscaping`). A variable for another setting leaves the value alone; one for a setting
inside this one makes it a table or a list, which does not load. A variable for the section as a
whole, or for a position in it, does take its place (`displacesEscaping`).
-/

namespace DirectoryLookup

namespace Settings

/-- The place of the setting for escaping. -/
def escapingPlace : Place :=
  ("search", "escape_values")

/-- The text is a file that says yes to escaping when it is laid over the defaults. -/
def asksForEscaping (format : Format) (text : String) : Bool :=
  ((readFile? format text).bind fun file =>
    (valueAt? (file.foldl layEntry defaultRoot) escapingPlace).bind Raw.bool?) == some true

/-- The entries of a file say yes to escaping when they are laid, in this order, over the
defaults. -/
def EscapingIsAskedBy (file : Table) : Prop :=
  (valueAt? (file.foldl layEntry defaultRoot) escapingPlace).bind Raw.bool? = some true

/-- A variable with this name takes the place of the setting for escaping: it is for this setting,
for the section as a whole, or for a position in the section, which makes the section a list. -/
def displacesEscaping (name : String) : Bool :=
  match variablePath? name with
  | some [.key "search"] => true
  | some [.key "search", .key "escape_values"] => true
  | some (.key "search" :: .index _ :: _) => true
  | _ => false

/-- The setting for escaping has a value that does not load as a no. -/
def StandsForEscaping (root : Raw) : Prop :=
  ∃ value, valueAt? root escapingPlace = some value ∧ value.bool? ≠ some false

/-! ## One variable -/

variable {root : Raw}

/-- What is laid at the end of a path is no yes or no at its start. -/
theorem bool?_layAt_cons (lower : Option Raw) (step : Step) (path : List Step) (value : Raw) :
    (layAt lower (step :: path) value).bool? = none := by
  cases step <;> rfl

/-- **A variable leaves the setting for escaping its value or spoils it**, unless it takes its
place. -/
theorem StandsForEscaping.layVariable (h : StandsForEscaping root) {v : Variable}
    (hv : displacesEscaping v.1 = false) : StandsForEscaping (layVariable root v) := by
  rw [Settings.layVariable]
  cases hpath : variablePath? v.1 with
  | none => exact h
  | some path =>
    obtain ⟨value, hvalue, hbool⟩ := h
    obtain ⟨name, path, rfl⟩ := exists_key_of_variablePath? hpath
    simp only [displacesEscaping, hpath] at hv
    simp only [StandsForEscaping, valueAt?, escapingPlace, get?_layAt_key]
    by_cases hname : name = "search"
    · subst hname
      rw [if_pos rfl]
      rcases path with _ | ⟨key | position, path⟩
      · simp at hv
      · rw [get?_layAt_key]
        by_cases hkey : key = "escape_values"
        · subst hkey
          cases path with
          | nil => simp at hv
          | cons step path =>
            refine ⟨_, if_pos rfl, ?_⟩
            simp [bool?_layAt_cons]
        · exact ⟨value, (if_neg (Ne.symm hkey)).trans hvalue, hbool⟩
      · simp at hv
    · rw [if_neg (Ne.symm hname)]
      exact ⟨value, hvalue, hbool⟩

theorem StandsForEscaping.foldl_layVariable {environment : List Variable}
    (h : StandsForEscaping root) (hv : ∀ v ∈ environment, displacesEscaping v.1 = false) :
    StandsForEscaping (environment.foldl Settings.layVariable root) := by
  induction environment generalizing root with
  | nil => exact h
  | cons v environment ih =>
    rw [List.foldl_cons]
    exact ih (h.layVariable (hv v (by simp))) fun w hw => hv w (by simp [hw])

/-! ## Loading -/

/-- The setting for escaping is converted from the value at its place. -/
theorem bool?_of_ofTable? {value : Raw} (hvalue : valueAt? root escapingPlace = some value)
    {s : Settings} (hs : ofTable? (entriesOf (some root)) = some s) :
    value.bool? = some s.escapeValues := by
  obtain ⟨es, t, rfl, hsearch, ht⟩ := exists_table_of_valueAt? hvalue
  rw [entriesOf] at hs
  obtain ⟨-, search, -, hsection, -, -, -, -, -, -, hescape, -⟩ := ofTable?_eq_some_iff.1 hs
  have hsearch : Entries.get? es "search" = some (.table t) := hsearch
  have ht : Entries.get? t "escape_values" = some value := ht
  rw [hsearch, sectionOf?] at hsection
  obtain rfl := Option.some.inj hsection
  simpa [setting?, ht] using hescape

/-- **Entries that ask for escaping get it**, in whatever order they are laid, if the settings load
and no variable takes the place of the setting. -/
theorem escapeValues_of_isAskedBy {file : Table} {environment : List Variable}
    (h : EscapingIsAskedBy file) (hv : ∀ v ∈ environment, displacesEscaping v.1 = false)
    {s : Settings} (hs : layered? file environment = some s) : s.escapeValues = true := by
  obtain ⟨value, hvalue, hbool⟩ := Option.bind_eq_some_iff.1 h
  have hfile : StandsForEscaping (file.foldl layEntry defaultRoot) :=
    ⟨value, hvalue, by simp [hbool]⟩
  obtain ⟨value', hvalue', hbool'⟩ := hfile.foldl_layVariable hv
  have hconverted := bool?_of_ofTable? hvalue' hs
  cases hescape : s.escapeValues with
  | true => rfl
  | false => exact absurd (hescape ▸ hconverted) hbool'

/-- If a single key leads into the section of the setting, entries that ask for escaping in one
order get it in any other. -/
theorem escapeValues_of_perm {file file' : Table} {environment : List Variable}
    (hperm : file'.Perm file) (hsingle : (file.filter (leadsInto escapingPlace.1)).length ≤ 1)
    (h : EscapingIsAskedBy file) (hv : ∀ v ∈ environment, displacesEscaping v.1 = false)
    {s : Settings} (hs : layered? file' environment = some s) : s.escapeValues = true := by
  have h' : EscapingIsAskedBy file' := by
    rwa [EscapingIsAskedBy, valueAt?_foldl_layEntry_perm hperm hsingle]
  exact escapeValues_of_isAskedBy h' hv hs

theorem asksForEscaping_iff {format : Format} {text : String} :
    asksForEscaping format text = true ↔
      ∃ file, readFile? format text = some file ∧ EscapingIsAskedBy file := by
  rw [asksForEscaping, beq_iff_eq, Option.bind_eq_some_iff]
  rfl

/-- **A file that asks for escaping gets it**, if the settings load and no variable takes the place
of the setting. -/
theorem escapeValues_of_asksForEscaping {format : Format} {text : String}
    {environment : List Variable} (h : asksForEscaping format text = true)
    (hv : ∀ v ∈ environment, displacesEscaping v.1 = false) {s : Settings}
    (hs : load? (some (format, text)) environment = some s) : s.escapeValues = true := by
  obtain ⟨file, hread, h⟩ := asksForEscaping_iff.1 h
  rw [load?, hread] at hs
  exact escapeValues_of_isAskedBy h hv hs

/-! ## Documents of single values -/

section IsDocument

variable {document : Format × String} {file : Table}

theorem IsDocument.escapingIsAskedBy (h : IsDocument document file)
    (hmember : (escapingPlace, .bool true) ∈ members file) : EscapingIsAskedBy file := by
  have honce : (Raw.table file).KeysOnce := keysOnce_of_readFile? h.format h.read
  have hlaid := (valueAt?_foldl_layEntry h.plain honce isSectioned_defaultRoot).2 escapingPlace
  rw [(mem_members_iff honce).1 hmember] at hlaid
  simp [EscapingIsAskedBy, hlaid, Raw.bool?]

/-- A document of single values asks for escaping if the setting is a yes in it. -/
theorem IsDocument.asksForEscaping (h : IsDocument document file)
    (hmember : (escapingPlace, .bool true) ∈ members file) :
    asksForEscaping document.1 document.2 = true :=
  asksForEscaping_iff.2 ⟨file, h.read, h.escapingIsAskedBy hmember⟩

/-- **A document of single values in which the setting is a yes gets escaping**, in whatever order
its entries are laid. -/
theorem IsDocument.escapeValues (h : IsDocument document file)
    (hmember : (escapingPlace, .bool true) ∈ members file) {file' : Table}
    (hperm : file'.Perm file) {environment : List Variable}
    (hv : ∀ v ∈ environment, displacesEscaping v.1 = false) {s : Settings}
    (hs : layered? file' environment = some s) : s.escapeValues = true := by
  have honce : (Raw.table file).KeysOnce := keysOnce_of_readFile? h.format h.read
  have hsingle := h.plain.length_filter_leadsInto_le honce escapingPlace.1
  exact escapeValues_of_perm hperm hsingle (h.escapingIsAskedBy hmember) hv hs

end IsDocument

end Settings

namespace Program

open Settings (Format asksForEscaping displacesEscaping)

/-! ## The filter of an action -/

/-- The program prints this filter, or searches with it. -/
inductive Action.Uses : Action → String → Prop
  | print (filter : String) : Uses (.print (filter ++ "\n")) filter
  | search (s : Search.Searcher) (q : Option Expression) (limit : UInt32) (json : Bool) :
      Uses (.search s q limit json) (s.request q limit).filter

theorem uses_print_iff {text filter : String} :
    (Action.print text).Uses filter ↔ text = filter ++ "\n" := by
  constructor
  · rintro ⟨⟩
    rfl
  · rintro rfl
    exact .print filter

theorem uses_search_iff {s : Search.Searcher} {q : Option Expression} {limit : UInt32}
    {json : Bool} {filter : String} :
    (Action.search s q limit json).Uses filter ↔ filter = s.compile q := by
  constructor
  · rintro ⟨⟩
    rfl
  · rintro rfl
    exact .search s q limit json

theorem not_uses_fail {report filter : String} : ¬(Action.fail report).Uses filter := by
  rintro ⟨⟩

/-- **The filter used** is that of the query, by the registry and the escaping of the settings. -/
theorem uses_action_iff {a : Arguments} {base : Settings} {filter : String} :
    (action a base).Uses filter ↔
      ∃ q r, query a = .ok q ∧ base.registry = .ok r ∧
        filter = Filter.compile r base.escaping q := by
  cases hq : query a with
  | error report => simp [action, hq, not_uses_fail]
  | ok q =>
    -- Arguments from the command line change neither the registry nor the escaping.
    have hsearcher : Search.Searcher.ofSettings (overridden base a) =
        (Search.Searcher.mk (overridden base a)) <$> base.registry := rfl
    cases hr : base.registry with
    | error failure =>
      rw [hr] at hsearcher
      have haction : action a base = .fail failure.message := by
        simp only [action, hq, hsearcher]
        rfl
      simp [haction, not_uses_fail]
    | ok r =>
      rw [hr] at hsearcher
      have hcompile : (Search.Searcher.mk (overridden base a) r).compile q =
          Filter.compile r base.escaping q := Search.Searcher.compile_eq _ q
      by_cases hp : a.printFilter = true
      · rw [action_of_printFilter hq hsearcher hp]
        simp [uses_print_iff, hcompile, eq_comm]
      · have haction : action a base = .search ⟨overridden base a, r⟩ q
            (a.limit.getD base.sizeLimit) a.json := by
          simp only [action, hq, hsearcher]
          exact if_neg hp
        simp [haction, uses_search_iff, hcompile]

/-! ## The program -/

/-- **A file that asks for escaping gets it as long as the settings load**, for every query. If they
do not load, the program goes on with the defaults, and values stay as they are. -/
theorem uses_iff_of_asksForEscaping {w : World} {args : List String} {a : Arguments}
    {format : Format} {text : String} (hargs : Arguments.read args = .ok a)
    (hfile : (openSettings w).1 = .file format text) (hasks : asksForEscaping format text = true)
    (hvariables : ∀ v ∈ w.environment, displacesEscaping v.1 = false) :
    let todo := action a (baseSettings (openSettings w).1 w.environment)
    (∀ client, (run w client args).1 = todo.perform client) ∧
      (∀ base, Settings.load? (some (format, text)) w.environment = some base →
        ∀ filter, todo.Uses filter ↔ ∃ q r, query a = .ok q ∧ base.registry = .ok r ∧
          filter = Filter.compile r .escaped q) ∧
      (Settings.load? (some (format, text)) w.environment = none →
        ∀ filter, todo.Uses filter ↔ ∃ q, query a = .ok q ∧
          filter = Filter.compile Registry.person .verbatim q) := by
  intro todo
  refine ⟨fun client => ?_, fun base hbase filter => ?_, fun hnone filter => ?_⟩
  · rw [run_of_read hargs]
  · have hescape : base.escaping = .escaped := by
      rw [Settings.escaping, Settings.escapeValues_of_asksForEscaping hasks hvariables hbase]
      rfl
    simp only [todo, hfile, baseSettings, hbase, Option.getD_some, uses_action_iff, hescape]
  · have hregistry : Settings.registry {} = .ok Registry.person := rfl
    simp only [todo, hfile, baseSettings, hnone, Option.getD_none, uses_action_iff, hregistry]
    simp [Settings.escaping]

/-- A world with nothing in it but a settings file with this text. -/
def worldOf (text : String) (environment : List Settings.Variable) : World :=
  { working := []
    files := ⟨[(["dirsearch", "config.toml"], text)], []⟩
    environment := ("XDG_CONFIG_HOME", "/") :: environment }

/-- A star in a value is escaped. -/
theorem uses_iff_of_asksForEscaping_star :
    let text := "[search]\nescape_values = true\n"
    let w := worldOf text [("DIRSEARCH__SEARCH__PAGE_SIZE", "5")]
    (openSettings w).1 = .file .toml text ∧ asksForEscaping .toml text = true ∧
      (∀ v ∈ w.environment, displacesEscaping v.1 = false) ∧
      ∃ a, Arguments.read ["lastName=a*"] = .ok a ∧
        ∀ filter, (action a (baseSettings (openSettings w).1 w.environment)).Uses filter ↔
          filter = "(sn=a\\2a)" := by
  intro text w
  have hfile : (openSettings w).1 = .file .toml text := by decide +kernel
  have hasks : asksForEscaping .toml text = true := by decide +kernel
  have hvariables : ∀ v ∈ w.environment, displacesEscaping v.1 = false := by decide +kernel
  have hargs : Arguments.read ["lastName=a*"] = .ok { terms := ["lastName=a*"] } := by
    decide +kernel
  have hbase : Settings.load? (some (.toml, text)) w.environment =
      some { pageSize := 5, escapeValues := true } := by decide +kernel
  have hquery : query { terms := ["lastName=a*"] } = .ok (some (.equals "lastName" "a*")) := by rfl
  have hregistry : Settings.registry { pageSize := 5, escapeValues := true } =
      .ok Registry.person := rfl
  have hcompile : Filter.compile Registry.person .escaped (some (.equals "lastName" "a*")) =
      "(sn=a\\2a)" := by decide +kernel
  refine ⟨hfile, hasks, hvariables, _, hargs, fun filter => ?_⟩
  obtain ⟨-, hloaded, -⟩ := uses_iff_of_asksForEscaping hargs hfile hasks hvariables
  simp [hloaded _ hbase, hquery, hregistry, hcompile]

/-- Another setting that does not load, and a variable that makes a list of the section, each leave
the star as it is. -/
theorem run_asksForEscaping_verbatim :
    let text := "[directory]\nport = 70000\n\n[search]\nescape_values = true\n"
    let w := worldOf text []
    let text' := "[search]\nescape_values = true\n"
    let w' := worldOf text' [("DIRSEARCH__SEARCH[0]", "5")]
    let args := ["--print-filter", "lastName=a*"]
    (asksForEscaping .toml text = true ∧ (openSettings w).1 = .file .toml text ∧
        Settings.load? (some (.toml, text)) w.environment = none ∧
        (run w { events := [] } args).1 = { exitCode := 0, stdout := "(sn=a*)\n" }) ∧
      asksForEscaping .toml text' = true ∧ (openSettings w').1 = .file .toml text' ∧
        (Settings.load? (some (.toml, text')) w'.environment).isSome = true ∧
        (run w' { events := [] } args).1 = { exitCode := 0, stdout := "(sn=a*)\n" } := by
  decide +kernel

end Program

end DirectoryLookup
