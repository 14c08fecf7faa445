import DirectoryLookup.Settings.Load

/-!
# Files in which each key stands once

A document may repeat a key; the settings read from it do not. Of the members of a JSON object the
last one with a key counts, and a TOML document that sets a key twice is refused.

**Theorem (`keysOnce_of_readFile?`).** In the settings read from a TOML or JSON document each key
stands once, at the top and in every table below (`Raw.KeysOnce`).

For TOML this is an invariant of the reader, for the tree it builds and for the inline tables that
are open (`Reader.KeysOnce.step`). It rests on the two ways in which the tree changes: a key is set
(`Branch.KeysOnce.assign`), or a table on the way is changed (`Branch.KeysOnce.within`).
-/

namespace DirectoryLookup

/-! ## JSON -/

namespace Settings

open Json (Node)

/-- In a table, and in the tables among its values, each key stands once. Lists are not looked
into. -/
inductive Raw.KeysOnce : Raw → Prop
  | single {r : Raw} (h : ∀ entries, r ≠ .table entries) : KeysOnce r
  | table {entries : Table} (distinct : Entries.Distinct entries)
      (values : ∀ e ∈ entries, KeysOnce e.2) : KeysOnce (.table entries)

theorem keysOnce_of_ofNumber? {digits : List Char} {r : Raw} (h : Raw.ofNumber? digits = some r) :
    r.KeysOnce := by
  refine .single fun entries => ?_
  rintro rfl
  unfold Raw.ofNumber? at h
  simp only [Option.bind_eq_bind, Option.pure_def] at h
  split at h
  · cases h
  · simp [Option.bind_eq_some_iff] at h

theorem Raw.KeysOnce.of_table {es : Table} (h : (Raw.table es).KeysOnce) :
    Entries.Distinct es ∧ ∀ e ∈ es, e.2.KeysOnce := by
  cases h with
  | single h => exact absurd rfl (h es)
  | table distinct values => exact ⟨distinct, values⟩

theorem keysOnce_ofList {es : List (String × Raw)} (h : ∀ e ∈ es, e.2.KeysOnce) :
    (Raw.table (Entries.ofList es)).KeysOnce := by
  have hes : (Entries.ofList es).Distinct ∧ ∀ e ∈ Entries.ofList es, e.2.KeysOnce := by
    refine Entries.ofList_induction (P := fun es => es.Distinct ∧ ∀ e ∈ es, e.2.KeysOnce) es
      ⟨Entries.distinct_nil, by simp⟩ fun es' e he hes' => ?_
    refine ⟨hes'.1.put e.1 e.2, fun e' he' => ?_⟩
    rcases Entries.mem_put he' with rfl | he'
    · exact h e he
    · exact hes'.2 e' he'
  exact .table hes.1 hes.2

mutual

theorem keysOnce_of_ofNode? {levels : Nat} {node : Node} {r : Raw}
    (h : Raw.ofNode? levels node = some r) : r.KeysOnce := by
  cases node with
  | null | bool =>
    obtain rfl := Option.some.inj h
    exact .single (by simp)
  | number digits => exact keysOnce_of_ofNumber? h
  | string raw =>
    obtain ⟨s, -, rfl⟩ := Option.map_eq_some_iff.1 h
    exact .single (by simp)
  | array items =>
    rw [Raw.ofNode?] at h
    split at h
    · cases h
    · obtain ⟨rs, -, rfl⟩ := Option.map_eq_some_iff.1 h
      exact .single (by simp)
  | object members =>
    rw [Raw.ofNode?] at h
    split at h
    · cases h
    · obtain ⟨es, hes, rfl⟩ := Option.map_eq_some_iff.1 h
      exact keysOnce_ofList (keysOnce_of_ofMembers? hes)
termination_by structural node

theorem keysOnce_of_ofMembers? {levels : Nat} {members : List (List Char × Node)}
    {es : List (String × Raw)} (h : Raw.ofMembers? levels members = some es) :
    ∀ e ∈ es, e.2.KeysOnce := by
  cases members with
  | nil =>
    obtain rfl := Option.some.inj h
    simp
  | cons m members =>
    obtain ⟨key, node⟩ := m
    rw [Raw.ofMembers?] at h
    split at h
    · next key' r hkey hr =>
      obtain ⟨es', hes', rfl⟩ := Option.map_eq_some_iff.1 h
      intro e he
      rcases List.mem_cons.1 he with rfl | he
      · exact keysOnce_of_ofNode? hr
      · exact keysOnce_of_ofMembers? hes' e he
    · cases h
termination_by structural members

end

theorem keysOnce_of_ofJson? {text : List Char} {table : Table} (h : ofJson? text = some table) :
    (Raw.table table).KeysOnce := by
  unfold ofJson? at h
  simp only [Option.bind_eq_bind, Option.bind_eq_some_iff] at h
  obtain ⟨node, -, r, hr, hr'⟩ := h
  cases r with
  | table t =>
    obtain rfl := Option.some.inj hr'
    exact keysOnce_of_ofNode? hr
  | null | bool | integer | float | text | list => cases hr'

end Settings

/-! ## TOML: the tree -/

namespace Toml

open Settings (Raw Table)

/-- In a table of the tree, and in the tables below it, each key stands once. -/
inductive Tree.KeysOnce : Tree → Prop
  | leaf {value : Raw} (h : value.KeysOnce) : KeysOnce (.leaf value)
  | table {origin : Origin} {entries : Branch} (distinct : Entries.Distinct entries)
      (values : ∀ e ∈ entries, KeysOnce e.2) : KeysOnce (.table origin entries)
  | tables {elements : List Branch} : KeysOnce (.tables elements)

/-- In the table being built, and in the tables below it, each key stands once. -/
structure Branch.KeysOnce (b : Branch) : Prop where
  distinct : Entries.Distinct b
  values : ∀ e ∈ b, e.2.KeysOnce

theorem Branch.KeysOnce.nil : Branch.KeysOnce [] :=
  ⟨Entries.distinct_nil, by simp⟩

theorem Branch.KeysOnce.put {b : Branch} (hb : b.KeysOnce) (key : String) {t : Tree}
    (ht : t.KeysOnce) : Branch.KeysOnce (Entries.put b key t) := by
  refine ⟨hb.distinct.put key t, fun e he => ?_⟩
  rcases Entries.mem_put he with rfl | he
  · exact ht
  · exact hb.values e he

theorem Tree.KeysOnce.ofBranch {origin : Origin} {b : Branch} (hb : b.KeysOnce) :
    (Tree.table origin b).KeysOnce :=
  .table hb.distinct hb.values

theorem Branch.KeysOnce.of_get? {b sub : Branch} (hb : b.KeysOnce) {key : String} {origin : Origin}
    (h : Entries.get? b key = some (.table origin sub)) : sub.KeysOnce := by
  have ht : (Tree.table origin sub).KeysOnce := hb.values _ (Entries.mem_of_get?_eq_some h)
  cases ht with
  | table distinct values => exact ⟨distinct, values⟩

theorem branchToTable_eq_map (b : Branch) : branchToTable b = b.map fun e => (e.1, e.2.toRaw) := by
  induction b with
  | nil => rfl
  | cons e b ih =>
    obtain ⟨key, t⟩ := e
    rw [branchToTable, ih]
    rfl

theorem keysOnce_branchToTable {b : Branch} (hb : Entries.Distinct b)
    (h : ∀ e ∈ b, e.2.toRaw.KeysOnce) : (Raw.table (branchToTable b)).KeysOnce := by
  rw [branchToTable_eq_map]
  refine .table ?_ fun e he => ?_
  · unfold Entries.Distinct at hb ⊢
    rwa [List.map_map]
  · obtain ⟨e', he', rfl⟩ := List.mem_map.1 he
    exact h e' he'

theorem Tree.KeysOnce.toRaw {t : Tree} (h : t.KeysOnce) : t.toRaw.KeysOnce := by
  induction h with
  | leaf h => exact h
  | table distinct _ ih => exact keysOnce_branchToTable distinct ih
  | tables => exact .single (by simp [Tree.toRaw])

theorem Branch.KeysOnce.toRaw {b : Branch} (hb : b.KeysOnce) :
    (Raw.table (branchToTable b)).KeysOnce :=
  keysOnce_branchToTable hb.distinct fun e he => (hb.values e he).toRaw

/-! ## TOML: changes of the tree -/

/-- A key is set that was not there before, in the table or in one below it. -/
theorem Branch.KeysOnce.assign {b b' : Branch} (hb : b.KeysOnce) {path : List String} {value : Raw}
    (hvalue : value.KeysOnce) (h : assign b path value = some b') : b'.KeysOnce := by
  induction path generalizing b b' with
  | nil => cases h
  | cons key path ih =>
    cases path with
    | nil =>
      rw [Toml.assign] at h
      split at h
      · obtain rfl := Option.some.inj h
        exact hb.put key (.leaf hvalue)
      · cases h
    | cons next path =>
      rw [Toml.assign] at h
      split at h
      · obtain ⟨sub, hsub, rfl⟩ := Option.map_eq_some_iff.1 h
        exact hb.put key (.ofBranch (ih .nil hsub))
      · next origin sub hget =>
        split at h
        · cases h
        · obtain ⟨sub', hsub', rfl⟩ := Option.map_eq_some_iff.1 h
          exact hb.put key (.ofBranch (ih (hb.of_get? hget) hsub'))
      · split at h
        · cases h
        · obtain ⟨last, -, rfl⟩ := Option.map_eq_some_iff.1 h
          exact hb.put key .tables
      · cases h

/-- A table at the end of a path is changed. -/
theorem Branch.KeysOnce.within {change : Branch → Option Branch}
    (hchange : ∀ {b b' : Branch}, b.KeysOnce → change b = some b' → b'.KeysOnce) {b b' : Branch}
    (hb : b.KeysOnce) {path : List String} (h : within b path change = some b') : b'.KeysOnce := by
  induction path generalizing b b' with
  | nil => exact hchange hb h
  | cons key path ih =>
    rw [Toml.within] at h
    split at h
    · obtain ⟨sub, hsub, rfl⟩ := Option.map_eq_some_iff.1 h
      exact hb.put key (.ofBranch (ih .nil hsub))
    · next origin sub hget =>
      obtain ⟨sub', hsub', rfl⟩ := Option.map_eq_some_iff.1 h
      exact hb.put key (.ofBranch (ih (hb.of_get? hget) hsub'))
    · obtain ⟨last, -, rfl⟩ := Option.map_eq_some_iff.1 h
      exact hb.put key .tables
    · cases h

theorem Branch.KeysOnce.openTable {b b' : Branch} (hb : b.KeysOnce) {key : String}
    (h : openTable key b = some b') : b'.KeysOnce := by
  unfold Toml.openTable at h
  split at h
  · obtain rfl := Option.some.inj h
    exact hb.put key (.ofBranch .nil)
  · next sub hget =>
    obtain rfl := Option.some.inj h
    exact hb.put key (.ofBranch (hb.of_get? hget))
  · cases h

theorem Branch.KeysOnce.openElement {b b' : Branch} (hb : b.KeysOnce) {key : String}
    (h : openElement key b = some b') : b'.KeysOnce := by
  unfold Toml.openElement at h
  split at h
  · obtain rfl := Option.some.inj h
    exact hb.put key .tables
  · obtain rfl := Option.some.inj h
    exact hb.put key .tables
  · cases h

theorem keysOnce_of_scalar? {text : List Char} {value : Raw} (h : scalar? text = some value) :
    value.KeysOnce := by
  refine .single fun entries => ?_
  rintro rfl
  unfold scalar? at h
  split at h
  · cases h
  · split at h
    · cases h
    · split at h
      · split at h <;> cases h
      · split at h
        · cases h
        · simp at h

/-! ## TOML: the reader -/

/-- The entries before a key are those of a table with each key once. -/
def Home.KeysOnce : Home → Prop
  | .line => True
  | .inline entries => entries.KeysOnce

/-- So are the entries of an open inline table. -/
def Frame.KeysOnce : Frame → Prop
  | .array _ => True
  | .inline entries _ => entries.KeysOnce

/-- And those of an inline table that may go on or end. -/
def Place.KeysOnce : Place → Prop
  | .key home _ | .afterKey home _ => home.KeysOnce
  | .equalsBelow entries _ | .pairOrEnd entries | .afterPair entries => entries.KeysOnce
  | _ => True

namespace Reader

/-- Each key stands once in the tree of a reader and in the inline tables that are open. -/
structure KeysOnce (r : Reader) : Prop where
  root : r.root.KeysOnce
  opened : ∀ frame ∈ r.opened, frame.KeysOnce
  place : r.place.KeysOnce

variable {r r' : Reader}

theorem KeysOnce.goTo (hr : r.KeysOnce) {place : Place} (h : r.goTo place = some r')
    (hplace : place.KeysOnce) : r'.KeysOnce := by
  obtain rfl := Option.some.inj h
  exact ⟨hr.root, hr.opened, hplace⟩

theorem KeysOnce.takeKey (hr : r.KeysOnce) {t : Token} {keys : List String}
    {place : List String → Place} (h : r.takeKey t keys place = some r')
    (hplace : ∀ keys, (place keys).KeysOnce) : r'.KeysOnce := by
  unfold Reader.takeKey at h
  split at h
  · cases h
  · obtain ⟨key, -, h⟩ := Option.bind_eq_some_iff.1 h
    exact hr.goTo h (hplace _)

theorem KeysOnce.openSection (hr : r.KeysOnce) {element : Bool} {keys : List String}
    (h : r.openSection element keys = some r') : r'.KeysOnce := by
  unfold Reader.openSection at h
  split at h
  · cases h
  · next last outer =>
    obtain ⟨root, hroot, rfl⟩ := Option.map_eq_some_iff.1 h
    refine ⟨hr.root.within ?_ hroot, hr.opened, trivial⟩
    intro b b' hb hchange
    split at hchange
    · exact hb.openElement hchange
    · exact hb.openTable hchange

theorem KeysOnce.takeKeys (hr : r.KeysOnce) {home : Home} (hhome : home.KeysOnce)
    (keys : List String) : (r.takeKeys home keys).KeysOnce := by
  cases home with
  | line => exact ⟨hr.root, hr.opened, trivial⟩
  | inline entries =>
    refine ⟨hr.root, fun frame hframe => ?_, trivial⟩
    rcases List.mem_cons.1 hframe with rfl | hframe
    · exact hhome
    · exact hr.opened frame hframe

/-- A value is complete: it is set in the tree, or in an inline table that is open. -/
theorem KeysOnce.complete (hr : r.KeysOnce) {value : Raw} (hvalue : value.KeysOnce)
    (h : r.complete value = some r') : r'.KeysOnce := by
  unfold Reader.complete at h
  split at h
  · obtain ⟨root, hroot, rfl⟩ := Option.map_eq_some_iff.1 h
    exact ⟨hr.root.within (fun hb hassign => hb.assign hvalue hassign) hroot, hr.opened, trivial⟩
  · next items opened hopened =>
    obtain rfl := Option.some.inj h
    refine ⟨hr.root, fun frame hframe => ?_, trivial⟩
    rcases List.mem_cons.1 hframe with rfl | hframe
    · exact trivial
    · exact hr.opened frame (by simp [hopened, hframe])
  · next entries keys opened hopened =>
    obtain ⟨entries', hentries', rfl⟩ := Option.map_eq_some_iff.1 h
    have hframe : (Frame.inline entries keys).KeysOnce := hr.opened _ (by simp [hopened])
    have hentries : entries'.KeysOnce := Branch.KeysOnce.assign hframe hvalue hentries'
    exact ⟨hr.root, fun frame hframe => hr.opened frame (by simp [hopened, hframe]), hentries⟩

theorem KeysOnce.closeArray (hr : r.KeysOnce) (h : r.closeArray = some r') : r'.KeysOnce := by
  unfold Reader.closeArray at h
  split at h
  · next items opened hopened =>
    have hr' : Reader.KeysOnce { r with opened := opened } :=
      ⟨hr.root, fun frame hframe => hr.opened frame (by simp [hopened, hframe]), hr.place⟩
    exact hr'.complete (.single (by simp)) h
  · cases h

theorem KeysOnce.closeInline (hr : r.KeysOnce) {entries : Branch} (hentries : entries.KeysOnce)
    (h : r.closeInline entries = some r') : r'.KeysOnce :=
  hr.complete hentries.toRaw h

theorem KeysOnce.endStep (hr : r.KeysOnce) {t : Token} (h : r.endStep t = some r') :
    r'.KeysOnce := by
  have hplace := hr.place
  unfold Reader.endStep at h
  split at h
  · obtain rfl := Option.some.inj h
    exact hr
  · exact hr.goTo h trivial
  · obtain rfl := Option.some.inj h
    exact hr
  · exact hr.goTo h trivial
  · exact hr.closeArray h
  · obtain rfl := Option.some.inj h
    exact hr
  · next entries _ heq =>
    rw [heq] at hplace
    exact hr.goTo h hplace
  · next entries _ heq =>
    rw [heq] at hplace
    exact hr.closeInline hplace h
  · cases h

theorem KeysOnce.valueStep (hr : r.KeysOnce) {t : Token} (h : r.valueStep t = some r') :
    r'.KeysOnce := by
  unfold Reader.valueStep at h
  split at h
  · obtain rfl := Option.some.inj h
    exact hr
  · split at h
    · cases h
    · obtain rfl := Option.some.inj h
      refine ⟨hr.root, fun frame hframe => ?_, trivial⟩
      rcases List.mem_cons.1 hframe with rfl | hframe
      · exact trivial
      · exact hr.opened frame hframe
  · split at h
    · cases h
    · exact hr.goTo h Branch.KeysOnce.nil
  · exact hr.complete (.single (by simp)) h
  · exact hr.goTo h trivial
  · cases h

theorem KeysOnce.scalarEnd (hr : r.KeysOnce) {read : List Char} {t : Token}
    (h : r.scalarEnd read t = some r') : r'.KeysOnce := by
  unfold Reader.scalarEnd at h
  simp only [Option.bind_eq_bind, Option.bind_eq_some_iff] at h
  obtain ⟨value, hvalue, r'', hr'', h⟩ := h
  exact (hr.complete (keysOnce_of_scalar? hvalue) hr'').endStep h

/-- **One token more** leaves each key standing once. -/
theorem KeysOnce.step (hr : r.KeysOnce) {t : Token} (h : r.step t = some r') : r'.KeysOnce := by
  have hplace := hr.place
  unfold Reader.step at h
  cases hp : r.place <;> rw [hp] at h hplace <;> dsimp only at h
  case lineStart =>
    split at h
    · exact Option.some.inj h ▸ hr
    · exact Option.some.inj h ▸ hr
    · exact hr.goTo h trivial
    · exact hr.takeKey h fun _ => trivial
  case headerStart =>
    split at h
    · exact hr.goTo h trivial
    · exact hr.goTo h trivial
    · exact hr.takeKey h fun _ => trivial
  case headerKey =>
    split at h
    · exact Option.some.inj h ▸ hr
    · exact hr.takeKey h fun _ => trivial
  case afterHeaderKey =>
    split at h
    · exact Option.some.inj h ▸ hr
    · exact hr.goTo h trivial
    · split at h
      · exact hr.goTo h trivial
      · exact hr.openSection h
    · cases h
  case headerEnd =>
    split at h
    · exact hr.openSection h
    · cases h
  case key home keys =>
    split at h
    · exact Option.some.inj h ▸ hr
    · exact hr.takeKey h fun _ => hplace
  case afterKey home keys =>
    split at h
    · exact Option.some.inj h ▸ hr
    · exact hr.goTo h hplace
    · exact Option.some.inj h ▸ hr.takeKeys hplace keys
    · exact hr.goTo h hplace
    · cases h
  case equalsBelow entries keys =>
    split at h
    · exact Option.some.inj h ▸ hr
    · exact Option.some.inj h ▸ hr
    · have hhome : (Home.inline entries).KeysOnce := hplace
      exact Option.some.inj h ▸ hr.takeKeys hhome keys
    · cases h
  case value =>
    split at h
    · exact Option.some.inj h ▸ hr
    · exact hr.valueStep h
  case itemOrEnd =>
    split at h
    · exact Option.some.inj h ▸ hr
    · exact hr.closeArray h
    · exact hr.valueStep h
  case pairOrEnd entries =>
    split at h
    · exact Option.some.inj h ▸ hr
    · exact Option.some.inj h ▸ hr
    · exact hr.closeInline hplace h
    · exact hr.takeKey h fun _ => hplace
  case scalar read =>
    split at h
    · exact hr.goTo h trivial
    · exact hr.goTo h trivial
    · split at h
      · exact hr.goTo h trivial
      · exact hr.scalarEnd h
    · exact hr.scalarEnd h
  case afterDate read =>
    split at h
    · split at h
      · exact hr.goTo h trivial
      · cases h
    · exact hr.scalarEnd h
  case lineEnd | afterItem | afterPair => exact hr.endStep h

/-- **All tokens** leave each key standing once. -/
theorem KeysOnce.foldlM (hr : r.KeysOnce) {tokens : List Token}
    (h : tokens.foldlM Reader.step r = some r') : r'.KeysOnce := by
  induction tokens generalizing r with
  | nil => exact Option.some.inj h ▸ hr
  | cons t tokens ih =>
    rw [List.foldlM_cons] at h
    obtain ⟨r'', hr'', h⟩ := Option.bind_eq_some_iff.1 h
    exact ih (hr.step hr'') h

theorem keysOnce_start : start.KeysOnce :=
  ⟨.nil, by simp [start], trivial⟩

end Reader

theorem keysOnce_of_settings? {document : List Char} {table : Table}
    (h : settings? document = some table) : (Raw.table table).KeysOnce := by
  unfold settings? at h
  simp only [Option.bind_eq_bind, Option.bind_eq_some_iff] at h
  obtain ⟨tokens, -, r, hr, h⟩ := h
  split at h
  · obtain rfl := Option.some.inj h
    exact (Reader.keysOnce_start.foldlM hr).root.toRaw
  · cases h

end Toml

/-! ## Files -/

/-- **In the settings of a file each key stands once**, in every table. -/
theorem Settings.keysOnce_of_readFile? {format : Format} (hformat : format = .toml ∨ format = .json)
    {text : String} {table : Table} (h : readFile? format text = some table) :
    (Raw.table table).KeysOnce := by
  rcases hformat with rfl | rfl
  · exact Toml.keysOnce_of_settings? h
  · exact keysOnce_of_ofJson? h

end DirectoryLookup
