import DirectoryLookup.Aliases
import DirectoryLookup.Proofs.Text.Trim
import Mathlib.Data.List.Induction

/-!
# What an alias declaration declares

**Declarations** (`Written`). Delimiters cut a declaration into pieces. A piece is blank, or a name
with blanks around it. There are blanks that are no delimiters, so a piece with a name may start
with one or have one inside the name.

**Sets in order** (`IsOrderedSet`). Of the names in a list that differ only in case the first stays,
as it is spelled, at its place among the others.

**Theorem (`read_orderedSet`).** Reading a declaration gives the ordered set of the names written in
it. Two declarations with delimiters between them give the names of the first, and behind these the
names of the second that the first has not, so it makes no difference what the delimiters are and
how many. The names read, with any delimiters between them, are a declaration of the same names.

A step adds one name (`IsOrderedSet.insert`), and a run adds the names of the declaration one after
the other (`isOrderedSet_foldl_insert`).
-/

namespace DirectoryLookup.Aliases

open Text (Tight Trims isBlank sameName sameName_refl trim trims_iff trims_trim)

/-! ## Declarations -/

/-- A name that a declaration can hold. -/
structure IsName (name : String) : Prop where
  ne_empty : name ≠ ""
  isDelimiter : ∀ c ∈ name.toList, isDelimiter c = false
  tight : Tight name.toList

/-- What stands between two delimiters, and the name in it, if there is one. -/
inductive Piece : List String → List Char → Prop
  | blank {text : List Char} :
      (∀ c ∈ text, isDelimiter c = false) → (∀ c ∈ text, isBlank c = true) → Piece [] text
  | name {name : String} {text : List Char} :
      (∀ c ∈ text, isDelimiter c = false) → Trims text name.toList → name ≠ "" → Piece [name] text

/-- `Written names text`: the declaration has these names in it, one after the other. -/
inductive Written : List String → List Char → Prop
  | last {names : List String} {piece : List Char} : Piece names piece → Written names piece
  | more {names names' : List String} {piece rest : List Char} {c : Char} :
      Piece names piece → isDelimiter c = true → Written names' rest →
      Written (names ++ names') (piece ++ c :: rest)

variable {names : List String} {text : List Char}

theorem Piece.isDelimiter (h : Piece names text) : ∀ c ∈ text, isDelimiter c = false := by
  cases h with
  | blank hd _ => exact hd
  | name hd _ _ => exact hd

theorem namesIn_of_forall_not (h : ∀ c ∈ text, isDelimiter c = false) :
    namesIn text = if trim text = [] then [] else [String.ofList (trim text)] := by
  rw [namesIn, Text.pieces_of_forall_not h]
  by_cases htrim : trim text = [] <;> simp [htrim]

/-- The names of a piece are found in it. -/
theorem Piece.namesIn_eq (h : Piece names text) : namesIn text = names := by
  rw [namesIn_of_forall_not h.isDelimiter]
  cases h with
  | blank _ hblank =>
    rw [if_pos (trims_iff.1 (Text.trims_nil hblank)).symm]
  | name _ htrims hne =>
    rw [← trims_iff.1 htrims, if_neg (by simpa using hne), String.ofList_toList]

/-- Every text without delimiters is a piece. -/
theorem piece_namesIn (h : ∀ c ∈ text, isDelimiter c = false) : Piece (namesIn text) text := by
  have htrims := trims_trim text
  rw [namesIn_of_forall_not h]
  by_cases hblank : trim text = []
  · rw [if_pos hblank]
    rw [hblank] at htrims
    refine .blank h ?_
    cases htrims with
    | mk hbefore hafter _ => simpa [or_imp, forall_and] using ⟨hbefore, hafter⟩
  · rw [if_neg hblank]
    refine .name h ?_ (by simpa using hblank)
    rwa [String.toList_ofList]

/-- A declaration has some names in it. The characters of its first piece are put aside until there
is a delimiter. -/
theorem written_append_namesIn {piece : List Char} (h : ∀ c ∈ piece, isDelimiter c = false)
    (text : List Char) : Written (namesIn (piece ++ text)) (piece ++ text) := by
  induction text generalizing piece with
  | nil =>
    rw [List.append_nil]
    exact .last (piece_namesIn h)
  | cons c text ih =>
    cases hc : isDelimiter c with
    | true =>
      rw [namesIn_append piece text hc]
      exact .more (piece_namesIn h) hc (ih (List.forall_mem_nil _))
    | false =>
      have hpiece : ∀ d ∈ piece ++ [c], isDelimiter d = false := by
        simpa [or_imp, forall_and] using ⟨h, hc⟩
      simpa using ih hpiece

/-- **A declaration has the names in it that are found, and no others.** -/
theorem written_iff : Written names text ↔ names = namesIn text := by
  constructor
  · intro h
    induction h with
    | last hpiece => exact hpiece.namesIn_eq.symm
    | more hpiece hc _ ih => rw [namesIn_append _ _ hc, hpiece.namesIn_eq, ih]
  · rintro rfl
    exact written_append_namesIn (List.forall_mem_nil _) text

theorem Written.isName (h : Written names text) : ∀ name ∈ names, IsName name := by
  have piece {names : List String} {text : List Char} (h : Piece names text) :
      ∀ name ∈ names, IsName name := by
    cases h with
    | blank _ _ => simp
    | @name name _ hd htrims hne =>
      rw [List.forall_mem_singleton]
      generalize hchars : name.toList = chars at htrims
      obtain ⟨-, -, htight⟩ := htrims
      refine ⟨hne, ?_, hchars ▸ htight⟩
      rw [hchars]
      exact fun c hc => hd c (by simp [hc])
  induction h with
  | last h => exact piece h
  | more h _ _ ih => exact List.forall_mem_append.2 ⟨piece h, ih⟩

/-! ## Sets in order -/

/-- `IsOrderedSet names set`: what the set of some names is, those that differ only in case being
the same. -/
structure IsOrderedSet (names set : List String) : Prop where
  /-- No two are the same. -/
  distinct : set.Pairwise fun a b => sameName a b = false
  /-- No name is left out. -/
  covers : ∀ name ∈ names, ∃ a ∈ set, sameName name a = true
  /-- Of names that are the same the first one stays. -/
  first : ∀ a, a ∈ set ↔ names.find? (sameName a) = some a
  /-- The names are in the order in which they first occur. -/
  order : set.Pairwise fun a b => names.findIdx (sameName a) < names.findIdx (sameName b)

/-- Names that are the same are the same as the same names. -/
theorem sameName_congr {a b : String} (h : sameName a b = true) : sameName a = sameName b := by
  funext c
  rw [sameName, sameName, Text.sameName_iff.1 h]

variable {set : List String} {name : String}

theorem IsOrderedSet.mem_names (h : IsOrderedSet names set) {a : String} (ha : a ∈ set) :
    a ∈ names :=
  List.mem_of_find?_eq_some ((h.first a).1 ha)

theorem IsOrderedSet.any_eq (h : IsOrderedSet names set) (name : String) :
    set.any (sameName name) = names.any (sameName name) := by
  rw [Bool.eq_iff_iff, List.any_eq_true, List.any_eq_true]
  constructor
  · rintro ⟨a, ha, hsame⟩
    exact ⟨a, h.mem_names ha, hsame⟩
  · rintro ⟨n, hn, hsame⟩
    obtain ⟨a, ha, hna⟩ := h.covers n hn
    exact ⟨a, ha, by rw [sameName_congr hsame, hna]⟩

theorem IsOrderedSet.findIdx_lt_length (h : IsOrderedSet names set) {a : String} (ha : a ∈ set) :
    names.findIdx (sameName a) < names.length :=
  List.findIdx_lt_length_of_exists ⟨a, h.mem_names ha, sameName_refl a⟩

/-- A name found once is found at the same place when more names follow. -/
theorem IsOrderedSet.findIdx_append (h : IsOrderedSet names set) {a : String} (ha : a ∈ set)
    (more : List String) :
    (names ++ more).findIdx (sameName a) = names.findIdx (sameName a) := by
  rw [List.findIdx_append, if_pos (h.findIdx_lt_length ha)]

theorem IsOrderedSet.order_append (h : IsOrderedSet names set) (more : List String) :
    set.Pairwise fun a b =>
      (names ++ more).findIdx (sameName a) < (names ++ more).findIdx (sameName b) := by
  refine h.order.imp_of_mem fun {a b} ha hb hab => ?_
  rwa [h.findIdx_append ha, h.findIdx_append hb]

/-- A name that is there already changes nothing. -/
theorem IsOrderedSet.append_of_any (h : IsOrderedSet names set)
    (hname : names.any (sameName name) = true) : IsOrderedSet (names ++ [name]) set := by
  refine ⟨h.distinct, ?_, fun a => ?_, h.order_append [name]⟩
  · rw [List.forall_mem_append, List.forall_mem_singleton]
    refine ⟨h.covers, ?_⟩
    rwa [← h.any_eq, List.any_eq_true] at hname
  · rw [h.first, List.find?_append]
    cases hfind : names.find? (sameName a) with
    | some b => rfl
    | none =>
      have hne : name ≠ a := by
        rintro rfl
        rw [List.find?_eq_none, ← List.any_eq_false, hname] at hfind
        cases hfind
      simp [List.find?_singleton, hne]

/-- A name that is not there yet is added behind the others. -/
theorem IsOrderedSet.append_of_not_any (h : IsOrderedSet names set)
    (hname : names.any (sameName name) = false) :
    IsOrderedSet (names ++ [name]) (set ++ [name]) := by
  have hnone : ∀ n ∈ names, sameName name n = false := by simpa using hname
  have hfresh : ∀ a ∈ set, sameName a name = false := by
    intro a ha
    rw [Text.sameName_comm, hnone a (h.mem_names ha)]
  refine ⟨?_, ?_, fun a => ?_, ?_⟩
  · exact List.pairwise_append.2 ⟨h.distinct, List.pairwise_singleton _ _, by simpa using hfresh⟩
  · rw [List.forall_mem_append, List.forall_mem_singleton]
    refine ⟨fun n hn => ?_, name, by simp, sameName_refl name⟩
    obtain ⟨a, ha, hsame⟩ := h.covers n hn
    exact ⟨a, List.mem_append_left _ ha, hsame⟩
  · rw [List.mem_append, List.mem_singleton, h.first, List.find?_append]
    by_cases hne : a = name
    · subst hne
      have hfind : names.find? (sameName a) = none := List.find?_eq_none.2 (by simpa using hname)
      simp [hfind, sameName_refl]
    · cases names.find? (sameName a) <;> simp [List.find?_singleton, hne, Ne.symm hne]
  · refine List.pairwise_append.2 ⟨h.order_append [name], List.pairwise_singleton _ _, ?_⟩
    intro a ha b hb
    obtain rfl := List.mem_singleton.1 hb
    rw [h.findIdx_append ha, List.findIdx_append, List.findIdx_eq_length_of_false hnone,
      if_neg (Nat.lt_irrefl _)]
    exact Nat.lt_add_left _ (h.findIdx_lt_length ha)

/-- **One more name** is added unless it is there already. -/
theorem IsOrderedSet.insert (h : IsOrderedSet names set) (name : String) :
    IsOrderedSet (names ++ [name]) (insert set name) := by
  unfold Aliases.insert
  rw [h.any_eq]
  cases hname : names.any (sameName name) with
  | true => exact h.append_of_any hname
  | false => exact h.append_of_not_any hname

/-- **All names**, one after the other, make an ordered set. -/
theorem isOrderedSet_foldl_insert (names : List String) :
    IsOrderedSet names (names.foldl insert []) := by
  induction names using List.reverseRecOn with
  | nil => exact ⟨.nil, by simp, by simp, .nil⟩
  | append_singleton names name ih =>
    rw [List.foldl_append]
    exact ih.insert name

/-! ## Sets joined -/

/-- A name that a set has not is among the names added to the set if it was to be added. -/
theorem any_filter_of_not_any {held : List String} (h : held.any (sameName name) = false)
    (set : List String) :
    (set.filter fun a => !held.any (sameName a)).any (sameName name) =
      set.any (sameName name) := by
  rw [List.any_filter]
  refine List.any_congr rfl fun a => ?_
  cases hsame : sameName name a with
  | false => rw [Bool.and_false]
  | true =>
    rw [← sameName_congr hsame, h]
    rfl

/-- One more name behind two sets joined is one more name in the second. -/
theorem insert_append_filter (held set : List String) (name : String) :
    insert (held ++ set.filter fun a => !held.any (sameName a)) name =
      held ++ (insert set name).filter fun a => !held.any (sameName a) := by
  unfold Aliases.insert
  rw [List.any_append]
  cases hheld : held.any (sameName name) with
  | true =>
    rw [Bool.true_or, if_pos rfl]
    split
    · rfl
    · simp [List.filter_append, hheld]
  | false =>
    rw [any_filter_of_not_any hheld, Bool.false_or]
    split
    · rfl
    · simp [List.filter_append, hheld]

/-- **Names added to a set** are those that the set has not. -/
theorem foldl_insert_eq_append (held names : List String) :
    names.foldl insert held =
      held ++ (names.foldl insert []).filter fun a => !held.any (sameName a) := by
  induction names using List.reverseRecOn with
  | nil => simp
  | append_singleton names name ih =>
    rw [List.foldl_append, List.foldl_append, ih]
    exact insert_append_filter held _ name

/-- Names of which no two are the same all stay. -/
theorem foldl_insert_of_distinct (h : set.Pairwise fun a b => sameName a b = false) :
    set.foldl insert [] = set := by
  induction set using List.reverseRecOn with
  | nil => rfl
  | append_singleton set name ih =>
    obtain ⟨hset, -, hname⟩ := List.pairwise_append.1 h
    have hany : set.any (sameName name) = false := by
      rw [List.any_eq_false]
      intro a ha
      rw [Text.sameName_comm, hname a ha name List.mem_cons_self]
      exact Bool.false_ne_true
    rw [List.foldl_append, ih hset]
    show insert set name = _
    rw [Aliases.insert, hany, if_neg Bool.false_ne_true]

/-! ## Delimiters -/

/-- One delimiter or several. -/
structure IsRun (run : String) : Prop where
  ne_empty : run ≠ ""
  isDelimiter : ∀ c ∈ run.toList, isDelimiter c = true

/-- `Joined names text`: the names with some delimiters behind each but the last. -/
inductive Joined : List String → String → Prop
  | none : Joined [] ""
  | last (name : String) : Joined [name] name
  | more {name run text : String} {names : List String} :
      IsRun run → Joined names text → Joined (name :: names) (name ++ run ++ text)

theorem namesIn_run_append {run : List Char} (h : ∀ c ∈ run, isDelimiter c = true)
    (rest : List Char) : namesIn (run ++ rest) = namesIn rest := by
  induction run with
  | nil => rfl
  | cons c run ih =>
    obtain ⟨hc, hrun⟩ := List.forall_mem_cons.1 h
    have hnil : namesIn [] = [] := rfl
    rw [List.cons_append, ← List.nil_append (c :: _), namesIn_append [] _ hc, hnil,
      List.nil_append, ih hrun]

/-- A run of delimiters does as one of them does. -/
theorem IsRun.namesIn_append {run : String} (h : IsRun run) (a b : String) :
    namesIn (a ++ run ++ b).toList = namesIn a.toList ++ namesIn b.toList := by
  obtain ⟨hne, hrun⟩ := h
  rw [String.toList_append, String.toList_append]
  cases hchars : run.toList with
  | nil => exact absurd (String.toList_eq_nil_iff.1 hchars) hne
  | cons c rest =>
    rw [hchars] at hrun
    obtain ⟨hc, hrest⟩ := List.forall_mem_cons.1 hrun
    rw [List.append_assoc, List.cons_append, Aliases.namesIn_append _ _ hc,
      namesIn_run_append hrest]

theorem IsName.namesIn_eq (h : IsName name) : namesIn name.toList = [name] := by
  have hpiece : Piece [name] name.toList := .name h.isDelimiter h.tight.trims h.ne_empty
  exact hpiece.namesIn_eq

/-- Names that a declaration can hold are found between delimiters. -/
theorem Joined.namesIn_eq {text : String} (h : Joined names text)
    (hnames : ∀ name ∈ names, IsName name) : namesIn text.toList = names := by
  induction h with
  | none => rfl
  | last name => exact (hnames name List.mem_cons_self).namesIn_eq
  | more hrun _ ih =>
    obtain ⟨hname, hnames⟩ := List.forall_mem_cons.1 hnames
    rw [hrun.namesIn_append, hname.namesIn_eq, ih hnames]
    rfl

/-! ## Reading -/

theorem isName_of_mem_read {d : String} (h : name ∈ read d) : IsName name := by
  have hset := isOrderedSet_foldl_insert (namesIn d.toList)
  exact (written_iff.2 rfl).isName name (hset.mem_names h)

/-- Two declarations with delimiters between them are read one after the other. -/
theorem IsRun.read_append {run : String} (h : IsRun run) (a b : String) :
    read (a ++ run ++ b) = read a ++ (read b).filter fun name => !(read a).any (sameName name) := by
  rw [read, h.namesIn_append, List.foldl_append]
  exact foldl_insert_eq_append _ _

/-- **Reading gives the ordered set of the names written in a declaration.** What is between
declarations makes no difference, and what is read is itself a declaration of the same names. -/
theorem read_orderedSet (d : String) :
    (∃! names, Written names d.toList) ∧
    (∀ names, Written names d.toList → IsOrderedSet names (read d)) ∧
    (∀ name ∈ read d, IsName name) ∧
    (∀ a b run : String, IsRun run →
      read (a ++ run ++ b) =
        read a ++ (read b).filter fun name => !(read a).any (sameName name)) ∧
    (∀ a b run run' : String, IsRun run → IsRun run' →
      read (a ++ run ++ b) = read (a ++ run' ++ b)) ∧
    ∀ text, Joined (read d) text → read text = read d := by
  refine ⟨⟨namesIn d.toList, written_iff.2 rfl, fun names h => written_iff.1 h⟩, ?_, ?_, ?_, ?_, ?_⟩
  · intro names h
    rw [written_iff.1 h]
    exact isOrderedSet_foldl_insert _
  · exact fun name => isName_of_mem_read
  · exact fun a b run h => h.read_append a b
  · intro a b run run' h h'
    rw [h.read_append, h'.read_append]
  · intro text h
    have hset := isOrderedSet_foldl_insert (namesIn d.toList)
    rw [read, h.namesIn_eq fun name => isName_of_mem_read]
    exact foldl_insert_of_distinct hset.distinct

/-- A name between other blanks than delimiters, one with a blank in it, and three spellings. -/
theorem read_orderedSet_spellings :
    let d := "\tsn;;, Mail, SN\u00a0 x\ty mAIL"
    let names := ["sn", "Mail", "SN", "x\ty", "mAIL"]
    Written names d.toList ∧ IsOrderedSet names (read d) ∧ read d = ["sn", "Mail", "x\ty"] ∧
      IsRun "; ," ∧ read (d ++ "; ," ++ "Sn,cn") = ["sn", "Mail", "x\ty", "cn"] ∧
      Joined (read d) "sn; ,Mail; ,x\ty" ∧ read "sn; ,Mail; ,x\ty" = read d := by
  intro d names
  obtain ⟨-, hset, -, happend, -, hjoined⟩ := read_orderedSet d
  have hwritten : Written names d.toList := written_iff.2 (by decide)
  have hrun : IsRun "; ," := ⟨by decide, List.all_eq_true.1 (by decide)⟩
  have hread : read d = ["sn", "Mail", "x\ty"] := by decide
  have hjoin : Joined (read d) "sn; ,Mail; ,x\ty" := by
    rw [hread]
    exact .more hrun (.more hrun (.last "x\ty"))
  refine ⟨hwritten, hset names hwritten, hread, hrun, ?_, hjoin, hjoined _ hjoin⟩
  rw [happend d "Sn,cn" "; ," hrun, hread]
  decide

end DirectoryLookup.Aliases
