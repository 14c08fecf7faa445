import DirectoryLookup.Proofs.Person.Fields
import DirectoryLookup.Report

/-!
# What the plain report says

**Tables** (`table`). A line feed ends a row of a text, and tabs separate the columns of a row.

**Theorem (`table_plain_iff`).** The plain report has a row for each person, with the distinguished
name, the name to show and the mail addresses for columns, exactly when no value that it shows has a
line feed or a tab in it. Each such character in a value is one more in the report, and what is
shown was delivered with an entry.

Nothing keeps these characters out of the values, so an entry can show more people than one: the
report of one person can be the report of two others (`plain_forged`).
-/

namespace DirectoryLookup

namespace Person

/-- The values that make the name to show. -/
def nameParts (p : Person) : List String :=
  match p.fullName with
  | some name => [name]
  | none => p.firstName.toList ++ p.lastName.toList

/-- The values that are shown for a person. -/
def shown (p : Person) : List String :=
  p.dn :: p.nameParts ++ p.emails

/-- The parts of the name to show have a space between them. -/
theorem displayName_eq (p : Person) : p.displayName = " ".intercalate p.nameParts := by
  unfold displayName nameParts
  cases p.fullName with
  | none => rfl
  | some name => simp

end Person

namespace Report

/-! ## Tables -/

/-- The rows of a text, each with its columns. What follows the last line feed is a row as well. -/
def table (text : String) : List (List (List Char)) :=
  (text.toList.splitOn '\n').map (List.splitOn '\t')

/-- A value that can stand in a column. -/
def IsCell (value : String) : Prop :=
  '\n' ∉ value.toList ∧ '\t' ∉ value.toList

instance (value : String) : Decidable (IsCell value) :=
  inferInstanceAs (Decidable (_ ∧ _))

/-- The columns for a person. -/
def columns (p : Person) : List (List Char) :=
  [p.dn.toList, p.displayName.toList, (", ".intercalate p.emails).toList]

/-- The row for a person. -/
def row (p : Person) : List Char :=
  ['\t'].intercalate (columns p)

section Split

variable {α : Type} [BEq α] [LawfulBEq α] {a : α}

theorem not_mem_of_mem_splitOn {l part : List α} (h : part ∈ l.splitOn a) : a ∉ part := by
  induction l generalizing part with
  | nil =>
    rw [List.splitOn_nil, List.mem_singleton] at h
    simp [h]
  | cons b l ih =>
    rw [List.splitOn_cons_eq_if_modifyHead] at h
    split at h
    · rcases List.mem_cons.1 h with rfl | h
      · exact List.not_mem_nil
      · exact ih h
    · next hb =>
      cases hparts : l.splitOn a with
      | nil => exact absurd hparts (List.splitOn_ne_nil a l)
      | cons first rest =>
        rw [hparts, List.modifyHead_cons] at h
        rw [hparts, List.forall_mem_cons] at ih
        rcases List.mem_cons.1 h with rfl | h
        · rw [List.mem_cons, not_or]
          exact ⟨fun heq => hb (beq_iff_eq.2 heq.symm), ih.1⟩
        · exact ih.2 part h

/-- Rows are told apart by what ends each of them. -/
theorem splitOn_flatMap_append {rows : List (List α)} (h : ∀ row ∈ rows, a ∉ row) :
    (rows.flatMap (· ++ [a])).splitOn a = rows ++ [[]] := by
  induction rows with
  | nil => rfl
  | cons row rows ih =>
    obtain ⟨hrow, hrows⟩ := List.forall_mem_cons.1 h
    rw [List.flatMap_cons, List.append_assoc, List.singleton_append,
      List.splitOn_append_cons_self_of_not_mem hrow, ih hrows]
    rfl

theorem count_intercalate {sep : List α} (h : a ∉ sep) (parts : List (List α)) :
    (sep.intercalate parts).count a = parts.flatten.count a := by
  induction parts with
  | nil => rfl
  | cons part parts ih =>
    cases parts with
    | nil => simp
    | cons part' parts =>
      rw [List.intercalate_cons_cons, List.count_append, List.count_append, ih,
        List.count_eq_zero.2 h, Nat.add_zero, ← List.count_append, ← List.flatten_cons]

end Split

/-! ## What is written -/

section Characters

variable (p : Person) (people : List Person) {c : Char}

theorem toList_line : (line p).toList = row p ++ ['\n'] := by
  simp [line, row, columns, List.intercalate_cons_cons]

theorem toList_plain : (plain people).toList = (people.map row).flatMap (· ++ ['\n']) := by
  simp only [plain, String.toList_join, List.flatMap_map, toList_line]

/-- Columns have the characters of the values shown, and those that stand between values. -/
theorem count_columns (hspace : c ≠ ' ') (hcomma : c ≠ ',') :
    (columns p).flatten.count c = (p.shown.flatMap String.toList).count c := by
  have hjoined (sep : String) (hsep : c ∉ sep.toList) (values : List String) :
      (sep.intercalate values).toList.count c = (values.flatMap String.toList).count c := by
    rw [String.toList_intercalate, count_intercalate hsep, List.flatMap_def]
  have hname : p.displayName.toList.count c = (p.nameParts.flatMap String.toList).count c := by
    rw [p.displayName_eq]
    exact hjoined " " (by simpa using hspace) p.nameParts
  have hemails := hjoined ", " (by simp [hspace, hcomma]) p.emails
  rw [Person.shown, List.flatMap_append, List.flatMap_cons, List.count_append, List.count_append,
    ← hname, ← hemails]
  simp [columns, Nat.add_assoc]

/-- Characters that each line has, beside those of the values shown, are counted for the report. -/
theorem count_plain {k : Nat}
    (h : ∀ p, (line p).toList.count c = k + (p.shown.flatMap String.toList).count c) :
    (plain people).toList.count c =
      k * people.length + ((people.flatMap Person.shown).flatMap String.toList).count c := by
  rw [plain, String.toList_join, List.flatMap_map]
  induction people with
  | nil => rfl
  | cons p people ih =>
    simp only [List.flatMap_cons, List.flatMap_append, List.count_append, List.length_cons, ih, h,
      Nat.mul_succ]
    omega

theorem count_lineFeed_line :
    (line p).toList.count '\n' = 1 + (p.shown.flatMap String.toList).count '\n' := by
  rw [toList_line, List.count_append, row, count_intercalate (by decide),
    count_columns p (by decide) (by decide), List.count_singleton_self, Nat.add_comm]

theorem count_tab_line :
    (line p).toList.count '\t' = 2 + (p.shown.flatMap String.toList).count '\t' := by
  have hfeed : ['\n'].count '\t' = 0 := rfl
  rw [toList_line, ← count_columns p (by decide) (by decide)]
  simp only [row, columns, List.intercalate_cons_cons, List.intercalate_singleton,
    List.count_append, List.count_singleton_self, List.flatten_cons, List.flatten_nil,
    List.count_nil, hfeed]
  omega

/-- The columns can be told apart exactly when the values shown can stand in columns. -/
theorem forall_columns_iff :
    (∀ column ∈ columns p, '\n' ∉ column ∧ '\t' ∉ column) ↔ ∀ v ∈ p.shown, IsCell v := by
  have hmem {c : Char} (hspace : c ≠ ' ') (hcomma : c ≠ ',') :
      (∀ column ∈ columns p, c ∉ column) ↔ ∀ v ∈ p.shown, c ∉ v.toList := by
    have hcount := count_columns p hspace hcomma
    have hflatten : c ∉ (columns p).flatten ↔ c ∉ p.shown.flatMap String.toList := by
      rw [← List.count_eq_zero, hcount, List.count_eq_zero]
    simpa [List.mem_flatten, List.mem_flatMap, imp.swap] using hflatten
  simp only [IsCell, forall_and]
  rw [hmem (by decide) (by decide), hmem (by decide) (by decide)]

end Characters

/-! ## What is read -/

/-- **The rows of a report are those of its people if no column has a line feed or a tab in it**,
and only then. -/
theorem table_plain_eq_iff (people : List Person) :
    table (plain people) = people.map columns ++ [[[]]] ↔
      ∀ p ∈ people, ∀ column ∈ columns p, '\n' ∉ column ∧ '\t' ∉ column := by
  constructor
  · intro h p hp column hcolumn
    have hrow : columns p ∈ table (plain people) := by
      rw [h]
      exact List.mem_append_left _ (List.mem_map_of_mem hp)
    obtain ⟨text, htext, hcolumns⟩ := List.mem_map.1 hrow
    rw [← hcolumns] at hcolumn
    refine ⟨fun hfeed => not_mem_of_mem_splitOn htext ?_, not_mem_of_mem_splitOn hcolumn⟩
    have hflatten : (text.splitOn '\t').flatten.count '\n' = text.count '\n' := by
      have htab : '\n' ∉ ['\t'] := by decide
      rw [← count_intercalate htab, List.intercalate_splitOn]
    rw [← List.count_pos_iff, ← hflatten, List.count_pos_iff]
    exact List.mem_flatten.2 ⟨column, hcolumn, hfeed⟩
  · intro h
    have hrows : ∀ text ∈ people.map row, '\n' ∉ text := by
      intro text htext
      obtain ⟨p, hp, rfl⟩ := List.mem_map.1 htext
      rw [row, ← List.count_eq_zero, count_intercalate (by decide), List.count_eq_zero,
        List.mem_flatten]
      rintro ⟨column, hcolumn, hfeed⟩
      exact (h p hp column hcolumn).1 hfeed
    rw [table, toList_plain, splitOn_flatMap_append hrows, List.map_append, List.map_map]
    refine congrArg (· ++ [[[]]]) (List.map_congr_left fun p hp => ?_)
    exact List.splitOn_intercalate '\t' (fun column hcolumn => (h p hp column hcolumn).2)
      (List.cons_ne_nil _ _)

end Report

namespace Person

variable (r : Registry) (entry : Entry) {v : String}

/-- What a field holds came with an attribute. -/
theorem mem_attribute_of_mem_values {f : Field} (h : v ∈ (ofEntry r entry).values f) :
    ∃ a ∈ entry.attributes, v ∈ a.2 := by
  have of_list {values : List String} (hvalues : values ∈ listsFor r f entry.attributes)
      (hv : v ∈ values) : ∃ a ∈ entry.attributes, v ∈ a.2 := by
    obtain ⟨a, ha, rfl⟩ := List.mem_map.1 hvalues
    exact ⟨a, (List.mem_filter.1 ha).1, hv⟩
  cases hf : f.isList with
  | true =>
    rw [values_ofEntry_eq_foldl, foldl_extended_of_isList hf, List.nil_append] at h
    obtain ⟨values, hvalues, hv⟩ := List.mem_flatten.1 h
    exact of_list hvalues hv
  | false =>
    rw [values_ofEntry_of_isScalar r hf, Option.mem_toList, lastValue?,
      Option.bind_eq_some_iff] at h
    obtain ⟨values, hvalues, hv⟩ := h
    rw [List.findRev?_eq_find?_reverse] at hvalues
    exact of_list (List.mem_reverse.1 (List.mem_of_find?_eq_some hvalues))
      (List.mem_of_getLast? hv)

/-- **What is shown for a person was delivered** with the entry that the person is read from. -/
theorem delivered_of_mem_shown (h : v ∈ (ofEntry r entry).shown) :
    v = entry.dn ∨ ∃ a ∈ entry.attributes, v ∈ a.2 := by
  rw [shown, dn_ofEntry, List.cons_append, List.mem_cons, List.mem_append] at h
  obtain h | h | h := h
  · exact .inl h
  · refine .inr ?_
    unfold nameParts at h
    split at h
    · next name hname =>
      refine mem_attribute_of_mem_values r entry (f := .fullName) ?_
      show v ∈ (ofEntry r entry).fullName.toList
      rwa [hname]
    · rcases List.mem_append.1 h with h | h
      · exact mem_attribute_of_mem_values r entry (f := .firstName) h
      · exact mem_attribute_of_mem_values r entry (f := .lastName) h
  · exact .inr (mem_attribute_of_mem_values r entry (f := .email) h)

end Person

namespace Report

/-- **The plain report is a table of the people exactly if no value that it shows has a line feed or
a tab in it.** -/
theorem table_plain_iff (r : Registry) (entries : List Entry) :
    let people := entries.map (Person.ofEntry r)
    let shown := people.flatMap Person.shown
    let report := Report.people false people
    (table report = people.map columns ++ [[[]]] ↔ ∀ v ∈ shown, IsCell v) ∧
    report.toList.count '\n' = people.length + (shown.flatMap String.toList).count '\n' ∧
    report.toList.count '\t' = 2 * people.length + (shown.flatMap String.toList).count '\t' ∧
    ∀ entry ∈ entries, ∀ v ∈ (Person.ofEntry r entry).shown,
      v = entry.dn ∨ ∃ a ∈ entry.attributes, v ∈ a.2 := by
  intro people shown report
  refine ⟨?_, ?_, count_plain people count_tab_line, fun entry _ v =>
    Person.delivered_of_mem_shown r entry⟩
  · show table (plain people) = _ ↔ _
    rw [table_plain_eq_iff, List.forall_mem_flatMap]
    exact forall₂_congr fun p _ => forall_columns_iff p
  · have h := count_plain people count_lineFeed_line
    rwa [Nat.one_mul] at h

/-- People without a full name, with several addresses, and with nothing to show. -/
theorem table_plain_iff_three :
    let ann : Entry :=
      ⟨"uid=a", [("GIVENNAME", ["Ann", "Anna"]), ("sn", ["Doe"]), ("mail", ["a", "b"])]⟩
    let entries := [ann, ⟨"uid=b", [("displayName", [""]), ("sn", ["Roe"])]⟩, ⟨"", []⟩]
    let people := entries.map (Person.ofEntry .person)
    (∀ v ∈ people.flatMap Person.shown, IsCell v) ∧
      table (Report.people false people) =
        [["uid=a".toList, "Anna Doe".toList, "a, b".toList], ["uid=b".toList, [], []], [[], [], []],
          [[]]] ∧
      "Anna" ∈ (Person.ofEntry .person ann).shown ∧
      ("Anna" = ann.dn ∨ ∃ a ∈ ann.attributes, "Anna" ∈ a.2) := by
  intro ann entries people
  obtain ⟨htable, -, -, hdelivered⟩ := table_plain_iff .person entries
  have hcells : ∀ v ∈ people.flatMap Person.shown, IsCell v := by decide
  have hanna : "Anna" ∈ (Person.ofEntry .person ann).shown := by decide
  refine ⟨hcells, ?_, hanna, hdelivered ann List.mem_cons_self "Anna" hanna⟩
  rw [htable.2 hcells]
  decide

/-- A value can end the line of its person and write the line of another. -/
theorem plain_forged :
    let one : List Entry :=
      [⟨"uid=ann", [("cn", ["Ann"]), ("mail", ["ann@example.org\nuid=eve\tEve\teve@example.org"])]⟩]
    let two : List Entry :=
      [⟨"uid=ann", [("cn", ["Ann"]), ("mail", ["ann@example.org"])]⟩,
        ⟨"uid=eve", [("cn", ["Eve"]), ("mail", ["eve@example.org"])]⟩]
    let report (entries : List Entry) :=
      Report.people false (entries.map (Person.ofEntry .person))
    report one = report two ∧ (report one).toList.count '\n' ≠ one.length ∧
      table (report one) ≠ (one.map (Person.ofEntry .person)).map columns ++ [[[]]] := by
  decide

end Report

end DirectoryLookup
