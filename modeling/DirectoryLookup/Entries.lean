/-!
# Entries by key

A list of keys and values in which each key stands once.

Main statements: `get?_put`, what the entries hold after a change, and `Distinct.put`, a change
leaves each key standing once.
-/

namespace DirectoryLookup

/-- Values by key. -/
abbrev Entries (α : Type) := List (String × α)

namespace Entries

variable {α : Type}

/-- The value of a key. -/
def get? (es : Entries α) (key : String) : Option α :=
  es.lookup key

/-- The entries with a value for a key, in place of the one it had. -/
def put : Entries α → String → α → Entries α
  | [], key, value => [(key, value)]
  | (k, v) :: es, key, value =>
    if k = key then (key, value) :: es else (k, v) :: put es key value

/-- The entries of a sequence of keys and values; of a repeated key the last value counts. -/
def ofList (sequence : List (String × α)) : Entries α :=
  sequence.foldl (fun es e => put es e.1 e.2) []

/-- **A change shows at its key and nowhere else.** -/
theorem get?_put (es : Entries α) (key : String) (value : α) (k : String) :
    (es.put key value).get? k = if k = key then some value else es.get? k := by
  induction es with
  | nil => simp only [put, get?, List.lookup_cons]; split <;> simp_all
  | cons e es ih =>
    obtain ⟨k', v'⟩ := e
    by_cases hk : k = k'
    · subst hk
      by_cases h : k = key <;> simp [put, get?, h]
    · have hb : (k == k') = false := by simpa using hk
      by_cases h : k' = key
      · subst h
        simp [put, get?, List.lookup_cons, hb, hk]
      · simp only [get?] at ih
        simp [put, get?, List.lookup_cons, h, hb, ih]

theorem get?_cons (k : String) (v : α) (es : Entries α) (key : String) :
    get? ((k, v) :: es) key = if key = k then some v else es.get? key := by
  by_cases h : key = k
  · simp [get?, h]
  · have hb : (key == k) = false := by simpa using h
    simp [get?, List.lookup_cons, hb, h]

/-! ## Each key once -/

/-- Each key stands once. -/
def Distinct (es : Entries α) : Prop :=
  (es.map Prod.fst).Nodup

variable {es : Entries α} {key : String} {value : α}

theorem mem_of_get?_eq_some (h : es.get? key = some value) : (key, value) ∈ es := by
  obtain ⟨before, after, rfl, -⟩ := List.lookup_eq_some_iff.1 h
  simp

/-- A key that does not stand among the entries has no value. -/
theorem get?_eq_none (h : key ∉ es.map Prod.fst) : es.get? key = none := by
  cases hget : es.get? key with
  | none => rfl
  | some value => exact absurd (List.mem_map.2 ⟨_, mem_of_get?_eq_some hget, rfl⟩) h

theorem Distinct.get?_eq_some_iff (h : es.Distinct) :
    es.get? key = some value ↔ (key, value) ∈ es := by
  refine ⟨mem_of_get?_eq_some, fun hmem => ?_⟩
  induction es with
  | nil => simp at hmem
  | cons e es ih =>
    obtain ⟨k, v⟩ := e
    obtain ⟨hnew, hes⟩ := List.nodup_cons.1 h
    by_cases hk : key = k
    · subst hk
      have hvalue : value = v := by
        rcases List.mem_cons.1 hmem with heq | hmem
        · exact congrArg Prod.snd heq
        · exact absurd (List.mem_map.2 ⟨_, hmem, rfl⟩) hnew
      rw [get?_cons, if_pos rfl, hvalue]
    · rw [get?_cons, if_neg hk]
      exact ih hes (by simpa [hk] using hmem)

theorem mem_put {e : String × α} (h : e ∈ es.put key value) : e = (key, value) ∨ e ∈ es := by
  induction es with
  | nil => simpa [put] using h
  | cons e' es ih =>
    obtain ⟨k, v⟩ := e'
    by_cases hk : k = key
    · rw [put, if_pos hk] at h
      rcases List.mem_cons.1 h with rfl | h
      · exact Or.inl rfl
      · exact Or.inr (List.mem_cons_of_mem _ h)
    · rw [put, if_neg hk] at h
      rcases List.mem_cons.1 h with rfl | h
      · exact Or.inr (by simp)
      · rcases ih h with rfl | h
        · exact Or.inl rfl
        · exact Or.inr (List.mem_cons_of_mem _ h)

theorem distinct_nil : Distinct ([] : Entries α) := by
  simp [Distinct]

/-- **A change leaves each key standing once.** -/
theorem Distinct.put (h : es.Distinct) (key : String) (value : α) :
    (es.put key value).Distinct := by
  induction es with
  | nil => simp [Distinct, Entries.put]
  | cons e es ih =>
    obtain ⟨k, v⟩ := e
    obtain ⟨hnew, hes⟩ := List.nodup_cons.1 h
    by_cases hk : k = key
    · subst hk
      rw [Entries.put, if_pos rfl]
      exact List.nodup_cons.2 ⟨hnew, hes⟩
    · rw [Entries.put, if_neg hk]
      refine List.nodup_cons.2 ⟨fun hmem => ?_, ih hes⟩
      obtain ⟨e, he, hfst⟩ := List.mem_map.1 hmem
      rcases mem_put he with rfl | he
      · exact hk hfst.symm
      · exact hnew (List.mem_map.2 ⟨e, he, hfst⟩)

/-- The entries of a sequence have each key once, and values from the sequence. -/
theorem ofList_induction {P : Entries α → Prop} (sequence : List (String × α)) (hnil : P [])
    (hput : ∀ es, ∀ e ∈ sequence, P es → P (es.put e.1 e.2)) : P (ofList sequence) := by
  have hfold : ∀ es, P es → P (sequence.foldl (fun es e => es.put e.1 e.2) es) := by
    clear hnil
    induction sequence with
    | nil => exact fun es h => h
    | cons e sequence ih =>
      intro es h
      exact ih (fun es e' he' => hput es e' (by simp [he'])) _ (hput es e (by simp) h)
  exact hfold [] hnil

end Entries

end DirectoryLookup
