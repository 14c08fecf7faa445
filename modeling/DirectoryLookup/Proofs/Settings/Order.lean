import DirectoryLookup.Proofs.Settings.Layers
import Mathlib.Data.List.Nodup
import Mathlib.Data.List.Perm.Basic

/-!
# The order of the entries of a file

The entries at the top of a file are laid over the settings one after the other. Here the same is
told section by section: what is done to a section by the entries that lead into it (`laySection`).

**Theorem (`valueAt?_foldl_layEntry_perm`).** If a single key of a file leads into a section, the
values in this section are the same in whatever order the entries are laid. A file of single values
has one key for each section, so there the order has no part at all
(`IsPlain.length_filter_leadsInto_le`).

Step (`get?_layEntry`): an entry changes the section that its key leads into and leaves the others
as they are. Run (`get?_foldl_layEntry`): a section is changed by its entries one after the other.
-/

namespace DirectoryLookup.Settings

/-- The key of an entry leads into the section with this name. -/
def leadsInto (name : String) (entry : String × Raw) : Bool :=
  match pathOf? entry.1.toList with
  | some (.key key :: _) => key == name
  | _ => false

/-- A section after one entry of a file is laid. -/
def laySection (name : String) (lower : Option Raw) (entry : String × Raw) : Option Raw :=
  match pathOf? entry.1.toList with
  | some (.key key :: path) => if key = name then some (layAt lower path entry.2) else lower
  | _ => lower

/-! ## Section by section -/

theorem get?_layAt_key (lower : Option Raw) (name : String) (path : List Step) (value : Raw)
    (key : String) :
    Entries.get? (entriesOf (some (layAt lower (.key name :: path) value))) key =
      if key = name then some (layAt (Entries.get? (entriesOf lower) name) path value)
      else Entries.get? (entriesOf lower) key := by
  rw [layAt, entriesOf, Entries.get?_put]

/-- **One entry of a file** changes the section that its key leads into, and no other. -/
theorem get?_layEntry (root : Raw) (entry : String × Raw) (name : String) :
    Entries.get? (entriesOf (some (layEntry root entry))) name =
      laySection name (Entries.get? (entriesOf (some root)) name) entry := by
  unfold layEntry laySection
  cases hpath : pathOf? entry.1.toList with
  | none => rfl
  | some path =>
    obtain ⟨key, rest, rfl⟩ := exists_key_of_pathOf? hpath
    dsimp only
    rw [get?_layAt_key]
    by_cases hkey : name = key
    · rw [if_pos hkey, if_pos hkey.symm, hkey]
    · rw [if_neg hkey, if_neg (Ne.symm hkey)]

/-- **All entries** change a section one after the other. -/
theorem get?_foldl_layEntry (file : Table) (root : Raw) (name : String) :
    Entries.get? (entriesOf (some (file.foldl layEntry root))) name =
      file.foldl (laySection name) (Entries.get? (entriesOf (some root)) name) := by
  induction file generalizing root with
  | nil => rfl
  | cons entry file ih => rw [List.foldl_cons, List.foldl_cons, ih, get?_layEntry]

theorem laySection_of_not_leadsInto {name : String} {entry : String × Raw}
    (h : leadsInto name entry = false) (lower : Option Raw) :
    laySection name lower entry = lower := by
  unfold leadsInto at h
  unfold laySection
  split
  · next key path hpath =>
    rw [hpath] at h
    exact if_neg (by simpa using h)
  · rfl

theorem foldl_laySection_filter (name : String) (file : Table) (lower : Option Raw) :
    (file.filter (leadsInto name)).foldl (laySection name) lower =
      file.foldl (laySection name) lower := by
  induction file generalizing lower with
  | nil => rfl
  | cons entry file ih =>
    cases h : leadsInto name entry with
    | true => rw [List.filter_cons_of_pos h, List.foldl_cons, List.foldl_cons, ih]
    | false =>
      rw [List.filter_cons_of_neg (by simp [h]), List.foldl_cons, laySection_of_not_leadsInto h, ih]

/-- **Only the entries that lead into a section have a part in its values.** -/
theorem valueAt?_foldl_layEntry_congr {file file' : Table} {p : Place}
    (h : file'.filter (leadsInto p.1) = file.filter (leadsInto p.1)) (root : Raw) :
    valueAt? (file'.foldl layEntry root) p = valueAt? (file.foldl layEntry root) p := by
  rw [valueAt?, valueAt?, get?_foldl_layEntry, get?_foldl_layEntry, ← foldl_laySection_filter, h,
    foldl_laySection_filter]

/-! ## A single key -/

/-- **The order of the entries has no part in the values of a section** that a single key leads
into. -/
theorem valueAt?_foldl_layEntry_perm {file file' : Table} {p : Place} (hperm : file'.Perm file)
    (hsingle : (file.filter (leadsInto p.1)).length ≤ 1) (root : Raw) :
    valueAt? (file'.foldl layEntry root) p = valueAt? (file.foldl layEntry root) p := by
  have hfilter := hperm.filter (leadsInto p.1)
  refine valueAt?_foldl_layEntry_congr ?_ root
  match hentries : file.filter (leadsInto p.1) with
  | [] => exact List.perm_nil.1 (hentries ▸ hfilter)
  | [entry] => exact List.perm_singleton.1 (hentries ▸ hfilter)
  | _ :: _ :: _ => simp [hentries] at hsingle

/-- A file of single values has one key for each section. -/
theorem IsPlain.length_filter_leadsInto_le {file : Table} (h : IsPlain file)
    (honce : (Raw.table file).KeysOnce) (name : String) :
    (file.filter (leadsInto name)).length ≤ 1 := by
  have hkeys : (file.filter (leadsInto name)).map Prod.fst =
      List.replicate (file.filter (leadsInto name)).length name := by
    refine List.eq_replicate_iff.2 ⟨by simp, fun key hkey => ?_⟩
    obtain ⟨entry, hentry, rfl⟩ := List.mem_map.1 hkey
    obtain ⟨hfile, hleads⟩ := List.mem_filter.1 hentry
    obtain ⟨hne, -, hchars⟩ := isKeyChar_of_mem_sections (h entry hfile).1
    rw [leadsInto, pathOf?_key hne hchars, String.ofList_toList] at hleads
    exact beq_iff_eq.1 hleads
  have hdistinct : ((file.filter (leadsInto name)).map Prod.fst).Nodup :=
    honce.of_table.1.sublist (List.filter_sublist.map Prod.fst)
  rwa [hkeys, List.nodup_replicate] at hdistinct

end DirectoryLookup.Settings
