import DirectoryLookup.Settings.Environment
import DirectoryLookup.Text.CaseFold
import Mathlib.Data.List.Infix
import Mathlib.Data.List.TakeWhile

/-!
# The names of variables

A value of the settings stands at a place: a section and a key in it. The name of a variable for a
place is the word `DIRSEARCH`, the section and the key, with two underscores between them, in
whatever case (`Names`).

**Theorem (`Names.variablePath?_eq`).** Such a name is read as the path of its place. So it is the
name of one place only (`Names.unique`).

A name that does not start with the word and two underscores (`counts`) has no path at all. Letters
outside ASCII make no difference to either: the one with a small letter in ASCII stands neither in
the word nor in a key.
-/

namespace DirectoryLookup.Settings

/-- Where a value stands: a section and a key in it. -/
abbrev Place := String × String

/-- The sections of the settings. -/
def sections : List String :=
  ["directory", "search", "schema"]

/-- The name starts as those of the variables that count do, in whatever case. -/
def counts (name : String) : Bool :=
  variableStart.isPrefixOf (Text.fold name).toList

/-- The keys that a variable can name: letters, digits, hyphens and underscores, without two
underscores in a row. -/
structure IsVariableKey (key : String) : Prop where
  ne_empty : key ≠ ""
  isKeyChar : ∀ c ∈ key.toList, isKeyChar c = true
  single : ¬['_', '_'] <:+: key.toList

/-- The name of a variable for a place. -/
structure Names (name : String) (p : Place) : Prop where
  fold_eq : Text.fold name = "dirsearch__" ++ p.1 ++ "__" ++ p.2
  mem_sections : p.1 ∈ sections
  key : IsVariableKey p.2

-- With `List.all`, since a quantifier over characters can also be decided by trying them all.
instance (key : String) : Decidable (IsVariableKey key) :=
  decidable_of_iff (key ≠ "" ∧ key.toList.all isKeyChar = true ∧ ¬['_', '_'] <:+: key.toList)
    ⟨fun ⟨h, h', h''⟩ => ⟨h, List.all_eq_true.1 h', h''⟩,
      fun ⟨h, h', h''⟩ => ⟨h, List.all_eq_true.2 h', h''⟩⟩

instance (name : String) (p : Place) : Decidable (Names name p) :=
  decidable_of_iff
    (Text.fold name = "dirsearch__" ++ p.1 ++ "__" ++ p.2 ∧ p.1 ∈ sections ∧ IsVariableKey p.2)
    ⟨fun ⟨h, h', h''⟩ => ⟨h, h', h''⟩, fun ⟨h, h', h''⟩ => ⟨h, h', h''⟩⟩

/-! ## Paths of two keys -/

/-- A key without positions behind it is one step. -/
theorem stepsOf?_key {key : List Char} (hne : key ≠ []) (h : ∀ c ∈ key, isKeyChar c = true) :
    stepsOf? key = some [.key (String.ofList key)] := by
  have htake : key.takeWhile isKeyChar = key := List.takeWhile_eq_self_iff.2 h
  have hdrop : key.dropWhile isKeyChar = [] := List.dropWhile_eq_nil_iff.2 h
  simp [stepsOf?, htake, hdrop, hne, Text.pieces]

theorem not_isDot_of_isKeyChar {c : Char} (h : isKeyChar c = true) : (c == '.') = false := by
  by_cases hc : c = '.'
  · subst hc
    simp [isKeyChar] at h
  · simpa using hc

theorem pathOf?_key {key : List Char} (hne : key ≠ []) (h : ∀ c ∈ key, isKeyChar c = true) :
    pathOf? key = some [.key (String.ofList key)] := by
  have hpieces : Text.pieces (· == '.') key = [key] :=
    Text.pieces_of_forall_not fun c hc => not_isDot_of_isKeyChar (h c hc)
  simp [pathOf?, hpieces, stepsOf?_key hne h]

theorem pathOf?_key_dot_key {s key : List Char} (hs : s ≠ []) (hkey : key ≠ [])
    (hs' : ∀ c ∈ s, isKeyChar c = true) (hkey' : ∀ c ∈ key, isKeyChar c = true) :
    pathOf? (s ++ '.' :: key) = some [.key (String.ofList s), .key (String.ofList key)] := by
  have hpieces : Text.pieces (· == '.') (s ++ '.' :: key) = [s, key] := by
    rw [Text.pieces_append s key rfl,
      Text.pieces_of_forall_not fun c hc => not_isDot_of_isKeyChar (hs' c hc),
      Text.pieces_of_forall_not fun c hc => not_isDot_of_isKeyChar (hkey' c hc)]
    rfl
  simp [pathOf?, hpieces, stepsOf?_key hs hs', stepsOf?_key hkey hkey']

/-! ## Where a path starts -/

theorem exists_key_of_stepsOf? {text : List Char} {steps : List Step}
    (h : stepsOf? text = some steps) : ∃ name rest, steps = .key name :: rest := by
  simp only [stepsOf?] at h
  split at h
  · cases h
  · obtain ⟨rest, -, rfl⟩ := Option.map_eq_some_iff.1 h
    exact ⟨_, rest, rfl⟩

/-- A path starts with a key. -/
theorem exists_key_of_pathOf? {text : List Char} {path : List Step}
    (h : pathOf? text = some path) : ∃ name rest, path = .key name :: rest := by
  obtain ⟨steps, hsteps, rfl⟩ := Option.map_eq_some_iff.1 h
  cases hpieces : Text.pieces (· == '.') text with
  | nil => exact absurd hpieces (Text.pieces_ne_nil _ _)
  | cons piece pieces =>
    rw [hpieces, List.mapM_cons] at hsteps
    obtain ⟨first, hfirst, hsteps⟩ := Option.bind_eq_some_iff.1 hsteps
    obtain ⟨others, -, hsteps⟩ := Option.bind_eq_some_iff.1 hsteps
    obtain rfl := Option.some.inj hsteps
    obtain ⟨name, rest, rfl⟩ := exists_key_of_stepsOf? hfirst
    exact ⟨name, rest ++ others.flatten, by simp⟩

theorem exists_key_of_variablePath? {name : String} {path : List Step}
    (h : variablePath? name = some path) : ∃ key rest, path = .key key :: rest := by
  simp only [variablePath?] at h
  split at h
  · exact exists_key_of_pathOf? h
  · cases h

/-! ## Two underscores for a dot -/

theorem dotted_cons_of_ne {c : Char} (h : c ≠ '_') (s : List Char) :
    dotted (c :: s) = c :: dotted s := by
  rw [dotted]
  rintro s' rfl
  exact absurd rfl h

theorem dotted_append_of_not_mem {s : List Char} (h : '_' ∉ s) (rest : List Char) :
    dotted (s ++ rest) = s ++ dotted rest := by
  induction s with
  | nil => rfl
  | cons c s ih =>
    have hc : c ≠ '_' := fun hc => h (by simp [hc])
    rw [List.cons_append, dotted_cons_of_ne hc, ih fun hs => h (by simp [hs])]
    rfl

/-- A text without two underscores in a row stays as it is. -/
theorem dotted_of_single {s : List Char} (h : ¬['_', '_'] <:+: s) : dotted s = s := by
  induction s with
  | nil => rfl
  | cons c s ih =>
    have hs : dotted s = s := ih fun hs => h (hs.trans (List.suffix_cons c s).isInfix)
    rw [dotted, hs]
    rintro s' rfl rfl
    exact h ⟨[], s', rfl⟩

/-! ## Lower case -/

theorem lowerChar_of_ne {c : Char} (h : c ≠ '\u212A') : lowerChar c = c.toLower := by
  simp [lowerChar, h]

/-- Only the Kelvin sign has another small letter than folding gives it, and none starts with it. -/
theorem isPrefixOf_map_lowerChar {start : List Char} (h : 'k' ∉ start) (h' : '\u212A' ∉ start)
    (s : List Char) :
    start.isPrefixOf (s.map lowerChar) = start.isPrefixOf (s.map Char.toLower) := by
  induction start generalizing s with
  | nil => simp
  | cons a start ih =>
    cases s with
    | nil => rfl
    | cons c s =>
      have hrest := ih (fun hk => h (by simp [hk])) (fun hk => h' (by simp [hk])) s
      have hhead : (a == lowerChar c) = (a == c.toLower) := by
        by_cases hc : c = '\u212A'
        · subst hc
          have ha : a ≠ 'k' := fun ha => h (by simp [ha])
          have ha' : a ≠ '\u212A' := fun ha => h' (by simp [ha])
          have hlower : lowerChar '\u212A' = 'k' := by decide
          have hfold : '\u212A'.toLower = '\u212A' := by decide
          rw [hlower, hfold]
          simp [ha, ha']
        · rw [lowerChar_of_ne hc]
      simp [List.isPrefixOf, hhead, hrest]

theorem toList_fold (name : String) : (Text.fold name).toList = name.toList.map Char.toLower := by
  simp [Text.fold]

/-- **A variable that does not count has no path.** -/
theorem variablePath?_of_not_counts {name : String} (h : counts name = false) :
    variablePath? name = none := by
  have hstart : variableStart.isPrefixOf (name.toList.map lowerChar) = false := by
    rw [isPrefixOf_map_lowerChar (by decide) (by decide), ← toList_fold]
    exact h
  simp [variablePath?, hstart]

/-! ## Names of places -/

theorem ne_kelvin_of_isKeyChar {c : Char} (h : isKeyChar c = true) : c ≠ '\u212A' := by
  rintro rfl
  simp [isKeyChar] at h

theorem isKeyChar_of_mem_sections {s : String} (h : s ∈ sections) :
    s.toList ≠ [] ∧ '_' ∉ s.toList ∧ ∀ c ∈ s.toList, isKeyChar c = true := by
  simp only [sections, List.mem_cons, List.not_mem_nil, or_false] at h
  rcases h with rfl | rfl | rfl <;>
    exact ⟨by decide, by decide, List.all_eq_true.1 (by decide)⟩

-- By `rfl`, since evaluating the text to prove an equation for it takes long.
theorem variableStart_eq : variableStart = "dirsearch__".toList := rfl

variable {name : String} {p q : Place}

theorem Names.toList_fold_eq (h : Names name p) :
    (Text.fold name).toList = variableStart ++ (p.1.toList ++ '_' :: '_' :: p.2.toList) := by
  have hbetween : "__".toList = ['_', '_'] := by decide
  calc (Text.fold name).toList
      = variableStart ++ p.1.toList ++ "__".toList ++ p.2.toList := by
        rw [h.fold_eq, variableStart_eq, String.toList_append, String.toList_append,
          String.toList_append]
    _ = variableStart ++ p.1.toList ++ ['_', '_'] ++ p.2.toList :=
        congrArg (variableStart ++ p.1.toList ++ · ++ p.2.toList) hbetween
    _ = variableStart ++ (p.1.toList ++ '_' :: '_' :: p.2.toList) := by simp

theorem Names.counts (h : Names name p) : counts name = true := by
  rw [Settings.counts, h.toList_fold_eq, List.isPrefixOf_iff_prefix]
  exact List.prefix_append _ _

theorem Names.map_lowerChar (h : Names name p) :
    name.toList.map lowerChar = variableStart ++ (p.1.toList ++ '_' :: '_' :: p.2.toList) := by
  have hfold : name.toList.map Char.toLower =
      variableStart ++ (p.1.toList ++ '_' :: '_' :: p.2.toList) := by
    rw [← toList_fold, h.toList_fold_eq]
  have hkelvin : '\u212A' ∉ variableStart ++ (p.1.toList ++ '_' :: '_' :: p.2.toList) := by
    intro hmem
    simp only [List.mem_append, List.mem_cons] at hmem
    rcases hmem with hmem | hmem | hmem | hmem | hmem
    · exact absurd hmem (by decide)
    · exact ne_kelvin_of_isKeyChar ((isKeyChar_of_mem_sections h.mem_sections).2.2 _ hmem) rfl
    · exact absurd hmem (by decide)
    · exact absurd hmem (by decide)
    · exact ne_kelvin_of_isKeyChar (h.key.isKeyChar _ hmem) rfl
  rw [← hfold]
  refine List.map_congr_left fun c hc => lowerChar_of_ne ?_
  rintro rfl
  rw [← hfold] at hkelvin
  exact hkelvin (List.mem_map.2 ⟨'\u212A', hc, by decide⟩)

/-- **The name of a variable for a place is read as the path of the place.** -/
theorem Names.variablePath?_eq (h : Names name p) :
    variablePath? name = some [.key p.1, .key p.2] := by
  obtain ⟨hne, hsingle, hchars⟩ := isKeyChar_of_mem_sections h.mem_sections
  have hkey : p.2.toList ≠ [] := by simpa using h.key.ne_empty
  have hstart : variableStart.isPrefixOf (name.toList.map lowerChar) = true := by
    rw [h.map_lowerChar, List.isPrefixOf_iff_prefix]
    exact List.prefix_append _ _
  have hdotted : dotted ((name.toList.map lowerChar).drop variableStart.length) =
      p.1.toList ++ '.' :: p.2.toList := by
    rw [h.map_lowerChar, List.drop_left, dotted_append_of_not_mem hsingle, dotted,
      dotted_of_single h.key.single]
  rw [variablePath?]
  simp only [hstart, if_true, hdotted]
  rw [pathOf?_key_dot_key hne hkey hchars h.key.isKeyChar]
  simp

/-- A name is the name of one place only. -/
theorem Names.unique (h : Names name p) (h' : Names name q) : p = q := by
  have heq := h.variablePath?_eq.symm.trans h'.variablePath?_eq
  simp only [Option.some.injEq, List.cons.injEq, Step.key.injEq, and_true] at heq
  exact Prod.ext heq.1 heq.2

end DirectoryLookup.Settings
