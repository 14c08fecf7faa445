import DirectoryLookup.Person.OfEntry
import DirectoryLookup.Proofs.Registry.Ownership

/-!
# What the fields of a person hold

A person is read from an entry one attribute after the other. Here the same is told from the entry
as a whole, field by field: from the value lists of the attributes that belong to the field
(`listsFor`).

**Theorem (`values_ofEntry`).** A list field holds all their values, in the order received. A scalar
field holds the last value of the last list that is not empty, and nothing if there is no such list
(`lastValue?`). So no other attribute has a part in it, an attribute without values changes nothing,
and an attribute may come in several parts.

Step (`values_takeAttribute`): an attribute extends the field it belongs to and leaves the others as
they are. Run (`values_foldl_takeAttribute`): a field is extended by its lists one after the other.
-/

namespace DirectoryLookup.Person

variable (r : Registry)

/-- The value lists of the attributes that belong to a field, in the order received. -/
def listsFor (f : Field) (attributes : List (String × List String)) : List (List String) :=
  (attributes.filter fun a => r.fieldFor? a.1 = some f).map Prod.snd

/-- The last value of the last list that has any. -/
def lastValue? (lists : List (List String)) : Option String :=
  (lists.findRev? (· ≠ [])).bind List.getLast?

theorem listsFor_append (f : Field) (as bs : List (String × List String)) :
    listsFor r f (as ++ bs) = listsFor r f as ++ listsFor r f bs := by
  simp [listsFor]

theorem lastValue?_concat (lists : List (List String)) (more : List String) :
    lastValue? (lists ++ [more]) = more.getLast?.or (lastValue? lists) := by
  unfold lastValue?
  rw [Registry.findRev?_concat]
  by_cases h : more = []
  · simp [h]
  · cases hlast : more.getLast? with
    | none => exact absurd (List.getLast?_eq_none_iff.1 hlast) h
    | some v => simp [h, hlast]

/-! ## One attribute -/

/-- **One attribute extends its field** and leaves the others as they are. -/
theorem values_takeAttribute (p : Person) (a : String × List String) (f : Field) :
    (takeAttribute r p a).values f =
      if r.fieldFor? a.1 = some f then extended f (p.values f) a.2 else p.values f := by
  unfold takeAttribute
  cases hf : r.fieldFor? a.1 with
  | none => simp
  | some g =>
    dsimp only
    rw [values_give]
    by_cases h : f = g
    · subst h
      simp
    · simp [h, Ne.symm h]

@[simp] theorem give_nil (p : Person) (f : Field) : p.give f [] = p := by
  cases f <;> simp [give, lastOr]

/-- Values given in two parts are given all at once. -/
theorem give_give (p : Person) (f : Field) (vs ws : List String) :
    (p.give f vs).give f ws = p.give f (vs ++ ws) := by
  cases f <;> simp [give, lastOr, Option.or_assoc]

/-! ## All attributes -/

/-- **All attributes extend a field by its lists**, one after the other. -/
theorem values_foldl_takeAttribute (as : List (String × List String)) (p : Person) (f : Field) :
    (as.foldl (takeAttribute r) p).values f =
      (listsFor r f as).foldl (extended f) (p.values f) := by
  induction as generalizing p with
  | nil => rfl
  | cons a as ih =>
    rw [List.foldl_cons, ih, values_takeAttribute]
    by_cases h : r.fieldFor? a.1 = some f <;> simp [listsFor, h]

theorem foldl_extended_of_isList {f : Field} (h : f.isList = true) (lists : List (List String))
    (held : List String) : lists.foldl (extended f) held = held ++ lists.flatten := by
  induction lists generalizing held with
  | nil => simp
  | cons vs lists ih =>
    rw [List.foldl_cons, ih]
    simp [extended, h]

theorem foldl_extended_of_isScalar {f : Field} (h : f.isList = false)
    (lists : List (List String)) :
    lists.foldl (extended f) [] = (lastValue? lists).toList := by
  induction lists using List.reverseRecOn with
  | nil => rfl
  | append_singleton lists vs ih =>
    rw [List.foldl_append, ih, lastValue?_concat]
    simp [extended, h, getLast?_toList]

theorem values_ofEntry_eq_foldl (entry : Entry) (f : Field) :
    (ofEntry r entry).values f = (listsFor r f entry.attributes).foldl (extended f) [] := by
  unfold ofEntry
  rw [values_foldl_takeAttribute]
  cases f <;> rfl

theorem values_ofEntry_of_isScalar {f : Field} (h : f.isList = false) (entry : Entry) :
    (ofEntry r entry).values f = (lastValue? (listsFor r f entry.attributes)).toList := by
  rw [values_ofEntry_eq_foldl, foldl_extended_of_isScalar h]

/-! ## Attributes in several parts -/

/-- Parts of an attribute, in whatever case each spells the name, are taken as the attribute is. -/
theorem foldl_takeAttribute_parts {a : String × List String} {parts : List (String × List String)}
    (hname : ∀ part ∈ parts, Text.sameName part.1 a.1 = true)
    (hvalues : parts.flatMap Prod.snd = a.2) (p : Person) :
    parts.foldl (takeAttribute r) p = takeAttribute r p a := by
  have hfield : ∀ part ∈ parts, r.fieldFor? part.1 = r.fieldFor? a.1 := by
    intro part hpart
    unfold Registry.fieldFor?
    rw [Text.sameName_iff.1 (hname part hpart)]
  clear hname
  cases hf : r.fieldFor? a.1 with
  | none =>
    rw [takeAttribute_of_fieldFor?_eq_none hf]
    clear hvalues
    induction parts with
    | nil => rfl
    | cons part parts ih =>
      have hpart : r.fieldFor? part.1 = none := (hfield part (by simp)).trans hf
      rw [List.foldl_cons, takeAttribute_of_fieldFor?_eq_none hpart]
      exact ih fun part' h => hfield part' (by simp [h])
  | some f =>
    have htake : takeAttribute r p a = p.give f a.2 := by simp [takeAttribute, hf]
    rw [htake, ← hvalues]
    clear hvalues htake
    induction parts generalizing p with
    | nil => simp
    | cons part parts ih =>
      have hpart : takeAttribute r p part = p.give f part.2 := by
        simp [takeAttribute, hfield part (by simp), hf]
      have hrest := ih (p.give f part.2) fun part' h => hfield part' (by simp [h])
      rw [List.foldl_cons, hpart, hrest, give_give, List.flatMap_cons]

/-! ## Entries -/

/-- **What a person read from an entry holds**, and what has no part in it. -/
theorem values_ofEntry (entry : Entry) :
    let p := ofEntry r entry
    let lists f := listsFor r f entry.attributes
    p.dn = entry.dn ∧
    (∀ f, f.isList = true → p.values f = (lists f).flatten) ∧
    (∀ f, f.isList = false → p.values f = (lastValue? (lists f)).toList) ∧
    (p.hasSurname = true ↔ ∃ name, lastValue? (lists .lastName) = some name ∧ name ≠ "") ∧
    ∀ before a after, entry.attributes = before ++ a :: after →
      (∀ f, r.fieldFor? a.1 ≠ some f →
        (ofEntry r ⟨entry.dn, before ++ after⟩).values f = p.values f) ∧
      (a.2 = [] → ofEntry r ⟨entry.dn, before ++ after⟩ = p) ∧
      ∀ parts : List (String × List String),
        (∀ part ∈ parts, Text.sameName part.1 a.1 = true) → parts.flatMap Prod.snd = a.2 →
          ofEntry r ⟨entry.dn, before ++ parts ++ after⟩ = p := by
  intro p lists
  have hparts : ∀ before a after, entry.attributes = before ++ a :: after →
      ∀ parts : List (String × List String),
        (∀ part ∈ parts, Text.sameName part.1 a.1 = true) → parts.flatMap Prod.snd = a.2 →
          ofEntry r ⟨entry.dn, before ++ parts ++ after⟩ = p := by
    intro before a after hattributes parts hname hvalues
    show (before ++ parts ++ after).foldl (takeAttribute r) _ =
      entry.attributes.foldl (takeAttribute r) _
    rw [hattributes, List.append_assoc, List.foldl_append, List.foldl_append, List.foldl_append,
      List.foldl_cons, foldl_takeAttribute_parts r hname hvalues]
  refine ⟨dn_ofEntry r entry, ?_, ?_, ?_, ?_⟩
  · intro f hf
    rw [values_ofEntry_eq_foldl, foldl_extended_of_isList hf, List.nil_append]
  · intro f hf
    exact values_ofEntry_of_isScalar r hf entry
  · have hlast : p.lastName.toList = (lastValue? (lists .lastName)).toList :=
      values_ofEntry_of_isScalar r (f := .lastName) rfl entry
    have hlast : p.lastName = lastValue? (lists .lastName) := by
      rw [← getLast?_toList p.lastName, hlast, getLast?_toList]
    rw [hasSurname, hlast]
    cases lastValue? (lists .lastName) <;> simp
  · intro before a after hattributes
    refine ⟨?_, ?_, hparts before a after hattributes⟩
    · intro f hf
      rw [values_ofEntry_eq_foldl, values_ofEntry_eq_foldl, hattributes, listsFor_append,
        listsFor_append]
      simp [listsFor, hf]
    · intro hempty
      simpa using hparts before a after hattributes [] (by simp) (by simp [hempty])

/-- Two attributes of a field alternate with those of others, in several spellings; the last list
for the surname is empty, the one before it counts. -/
theorem values_ofEntry_interleaved :
    let entry : Entry :=
      ⟨"cn=a", [("MAIL", ["v1", "v2"]), ("sn", ["Roe", "Doe"]), ("rfc822mailbox", ["v3"]),
        ("top", ["x"]), ("Mail", ["v4"]), ("SN", [])]⟩
    let p := ofEntry .person entry
    p.values .email = ["v1", "v2", "v3", "v4"] ∧ p.values .lastName = ["Doe"] ∧
      p.hasSurname = true ∧
      ofEntry .person ⟨"cn=a", [("Mail", ["v1"]), ("mail", []), ("mail", ["v2"])] ++
        entry.attributes.tail⟩ = p := by
  intro entry p
  obtain ⟨-, hlist, hscalar, hsurname, hattribute⟩ := values_ofEntry .person entry
  refine ⟨?_, ?_, ?_, ?_⟩
  · rw [hlist .email rfl]
    decide
  · rw [hscalar .lastName rfl]
    decide
  · exact hsurname.2 ⟨"Doe", by decide, by decide⟩
  · exact (hattribute [] ("MAIL", ["v1", "v2"]) entry.attributes.tail rfl).2.2
      [("Mail", ["v1"]), ("mail", []), ("mail", ["v2"])] (by decide) (by decide)

end DirectoryLookup.Person
