import DirectoryLookup.Ldap
import DirectoryLookup.Proofs.Person.Fields

/-!
# The order of the attributes of a server's entry

A server's entry has its attributes in no order, so they may be listed in any. For a directory entry
they are put in the order of their folded names, compared by code points.

**Theorem (`toEntry_of_perm`).** If no two attributes have the same name, in whatever case, the
order in which a server's entry lists them makes no difference, and neither do the binary ones: the
directory entry is the same, and so is the person read from it. Its attributes are those of the
server, values and all, in the one order in which the folded names ascend.

So a list field of the person holds the values of its attributes in ascending order of their names,
and a scalar field the last value of the attribute with the greatest name among those with values.
-/

namespace DirectoryLookup.Ldap

/-- No two attributes have the same name, in whatever case they spell it. -/
def Apart (attributes : List (String × List String)) : Prop :=
  (attributes.map fun a => Text.fold a.1).Nodup

/-- `InOrder attributes sorted`: these are the attributes, values and all, and their folded names
ascend. -/
structure InOrder (attributes sorted : List (String × List String)) : Prop where
  perm : sorted.Perm attributes
  ascending : sorted.Pairwise fun a b => Text.fold a.1 < Text.fold b.1

variable {attributes as bs : List (String × List String)}

/-! ## One order -/

/-- **Attributes have one order at most** in which their folded names ascend. -/
theorem InOrder.unique (ha : InOrder attributes as) (hb : InOrder attributes bs) : as = bs := by
  refine List.Perm.eq_of_pairwise ?_ ha.ascending hb.ascending (ha.perm.trans hb.perm.symm)
  intro a b _ _ hab hba
  exact absurd (String.lt_trans hab hba) (String.lt_irrefl _)

theorem InOrder.of_perm (h : InOrder attributes as) (hperm : attributes.Perm bs) : InOrder bs as :=
  ⟨h.perm.trans hperm, h.ascending⟩

theorem Apart.of_perm (h : Apart attributes) (hperm : as.Perm attributes) : Apart as :=
  (hperm.map _).nodup_iff.2 h

theorem Apart.pairwise (h : Apart attributes) :
    attributes.Pairwise fun a b => Text.fold a.1 ≠ Text.fold b.1 :=
  List.pairwise_map.1 h

theorem nameLe_iff {a b : String × List String} :
    nameLe a b = true ↔ Text.fold a.1 ≤ Text.fold b.1 := by
  rw [nameLe, decide_eq_true_eq]

/-- Sorting puts attributes with different names in their order. -/
theorem inOrder_mergeSort (h : Apart attributes) :
    InOrder attributes (attributes.mergeSort nameLe) := by
  have hperm := List.mergeSort_perm attributes nameLe
  have hsorted : (attributes.mergeSort nameLe).Pairwise fun a b => nameLe a b = true := by
    refine List.pairwise_mergeSort ?_ ?_ attributes
    · intro a b c hab hbc
      exact nameLe_iff.2 (String.le_trans (nameLe_iff.1 hab) (nameLe_iff.1 hbc))
    · intro a b
      rw [Bool.or_eq_true, nameLe_iff, nameLe_iff]
      exact String.le_total _ _
  refine ⟨hperm, (hsorted.and (h.of_perm hperm).pairwise).imp ?_⟩
  rintro a b ⟨hle, hne⟩
  exact Std.lt_of_le_of_ne (nameLe_iff.1 hle) hne

/-! ## The person read from an entry -/

section Person

open Person (lastValue? listsFor)

/-- `Prevails r f attributes a`: of the attributes that belong to the field and have values, `a` is
the one with the greatest folded name. -/
structure Prevails (r : Registry) (f : Field) (attributes : List (String × List String))
    (a : String × List String) : Prop where
  mem : a ∈ attributes
  field : r.fieldFor? a.1 = some f
  values : a.2 ≠ []
  greatest : ∀ b ∈ attributes, r.fieldFor? b.1 = some f → b.2 ≠ [] →
    Text.fold b.1 ≤ Text.fold a.1

/-- The attributes of a field are in order among themselves. -/
theorem InOrder.owned (h : InOrder attributes as) (r : Registry) (f : Field) :
    InOrder (attributes.filter fun a => r.fieldFor? a.1 = some f)
      (as.filter fun a => r.fieldFor? a.1 = some f) :=
  ⟨h.perm.filter _, h.ascending.filter _⟩

/-- Of attributes in their order, none in front of one has a greater name. -/
theorem InOrder.le_of_mem_before {before after : List (String × List String)}
    {a b : String × List String} (h : InOrder attributes (before ++ a :: after)) (hb : b ∈ before) :
    Text.fold b.1 ≤ Text.fold a.1 :=
  Std.le_of_lt ((List.pairwise_append.1 h.ascending).2.2 b hb a List.mem_cons_self)

/-- **In their order, the last attribute with values is the one with the greatest name.** -/
theorem InOrder.lastValue?_eq (h : InOrder attributes as) (r : Registry) (f : Field) :
    (∃ a, Prevails r f attributes a ∧ lastValue? (listsFor r f as) = a.2.getLast?) ∨
      (∀ a ∈ attributes, r.fieldFor? a.1 = some f → a.2 = []) ∧
        lastValue? (listsFor r f as) = none := by
  have howned := h.owned r f
  unfold lastValue? listsFor
  generalize as.filter (fun a => r.fieldFor? a.1 = some f) = owned at howned ⊢
  have hmem {a : String × List String} (ha : a ∈ attributes) (hf : r.fieldFor? a.1 = some f) :
      a ∈ owned :=
    howned.perm.mem_iff.2 (List.mem_filter.2 ⟨ha, decide_eq_true hf⟩)
  rw [Registry.findRev?_map]
  cases hlast : owned.findRev? ((· ≠ []) ∘ Prod.snd) with
  | none =>
    right
    have hempty := Registry.findRev?_eq_none_iff.1 hlast
    exact ⟨fun a ha hf => by simpa using hempty a (hmem ha hf), rfl⟩
  | some a =>
    left
    obtain ⟨hvalues, before, after, rfl, hafter⟩ := Registry.findRev?_eq_some_iff.1 hlast
    have howner : a ∈ attributes.filter fun a => r.fieldFor? a.1 = some f :=
      howned.perm.mem_iff.1 (by simp)
    obtain ⟨ha, hf⟩ := List.mem_filter.1 howner
    refine ⟨a, ⟨ha, of_decide_eq_true hf, by simpa using hvalues, ?_⟩, rfl⟩
    intro b hb hbf hbvalues
    rcases List.mem_append.1 (hmem hb hbf) with hb | hb
    · exact howned.le_of_mem_before hb
    · rcases List.mem_cons.1 hb with rfl | hb
      · exact String.le_refl _
      · exact absurd (by simpa using hafter b hb) hbvalues

end Person

/-! ## Entries -/

/-- **The order in which a server's entry lists its attributes makes no difference**, nor do the
binary ones. -/
theorem toEntry_of_perm {e e' : ServerEntry} (hdn : e'.dn = e.dn)
    (hperm : e'.attributes.Perm e.attributes) (hapart : Apart e.attributes) :
    e'.toEntry = e.toEntry ∧ e.toEntry.dn = e.dn ∧
    (∀ sorted, InOrder e.attributes sorted ↔ sorted = e.toEntry.attributes) ∧
    ∀ r, let p := Person.ofEntry r e.toEntry
      Person.ofEntry r e'.toEntry = p ∧
      (∀ f, f.isList = true →
        ∃ owned, InOrder (e.attributes.filter fun a => r.fieldFor? a.1 = some f) owned ∧
          p.values f = owned.flatMap Prod.snd) ∧
      ∀ f, f.isList = false →
        (∃ a, Prevails r f e.attributes a ∧ p.values f = a.2.getLast?.toList) ∨
          (∀ a ∈ e.attributes, r.fieldFor? a.1 = some f → a.2 = []) ∧ p.values f = [] := by
  have hsorted : InOrder e.attributes e.toEntry.attributes := inOrder_mergeSort hapart
  have hsorted' : InOrder e.attributes e'.toEntry.attributes :=
    (inOrder_mergeSort (hapart.of_perm hperm)).of_perm hperm
  have hentry : e'.toEntry = e.toEntry := by
    have hattributes : e'.attributes.mergeSort nameLe = e.attributes.mergeSort nameLe :=
      hsorted'.unique hsorted
    rw [ServerEntry.toEntry, ServerEntry.toEntry, hdn, hattributes]
  refine ⟨hentry, rfl, ?_, fun r => ⟨by rw [hentry], ?_, ?_⟩⟩
  · intro sorted
    refine ⟨fun h => h.unique hsorted, ?_⟩
    rintro rfl
    exact hsorted
  · intro f hf
    refine ⟨_, hsorted.owned r f, ?_⟩
    rw [Person.values_ofEntry_eq_foldl, Person.foldl_extended_of_isList hf, List.nil_append,
      List.flatMap_def]
    rfl
  · intro f hf
    rw [Person.values_ofEntry_of_isScalar r hf]
    rcases hsorted.lastValue?_eq r f with ⟨a, ha, hlast⟩ | ⟨hempty, hlast⟩
    · exact .inl ⟨a, ha, by rw [hlast]⟩
    · exact .inr ⟨hempty, by rw [hlast]; rfl⟩

/-- The same entry with its attributes the other way round and a binary one: names are compared
without their case, and of two attributes for the full name the one that is last in order counts. -/
theorem toEntry_of_perm_reversed :
    let e : ServerEntry :=
      { dn := "cn=a"
        attributes := [("displayName", ["J D"]), ("CN", ["Jane"]), ("rfc822Mailbox", ["c"]),
          ("Mail", ["b", "a"])] }
    let e' : ServerEntry :=
      { dn := "cn=a", attributes := e.attributes.reverse, binary := [("jpegPhoto", [[255]])] }
    let p := Person.ofEntry .person e'.toEntry
    e'.attributes.Perm e.attributes ∧ Apart e.attributes ∧ e'.toEntry = e.toEntry ∧
      e.toEntry.attributes.map Prod.fst = ["CN", "displayName", "Mail", "rfc822Mailbox"] ∧
      p.values .fullName = ["J D"] ∧ p.values .email = ["b", "a", "c"] := by
  intro e e' p
  have hperm : e'.attributes.Perm e.attributes := List.reverse_perm _
  have hapart : Apart e.attributes := by
    unfold Apart
    decide
  have hdn : e'.dn = e.dn := rfl
  obtain ⟨hentry, -, horder, hperson⟩ := toEntry_of_perm hdn hperm hapart
  obtain ⟨hsame, hlist, hscalar⟩ := hperson .person
  have hp : p = Person.ofEntry .person e.toEntry := hsame
  refine ⟨hperm, hapart, hentry, ?_, ?_, ?_⟩
  · rw [← (horder [("CN", ["Jane"]), ("displayName", ["J D"]), ("Mail", ["b", "a"]),
      ("rfc822Mailbox", ["c"])]).1 ⟨by decide, by decide⟩]
    rfl
  · have hlast : ∀ a ∈ e.attributes, Registry.person.fieldFor? a.1 = some .fullName →
        Text.fold "displayName" ≤ Text.fold a.1 → a.2.getLast?.toList = ["J D"] := by
      decide
    rw [hp]
    rcases hscalar .fullName rfl with ⟨a, ha, hvalues⟩ | ⟨hempty, -⟩
    · have hle := ha.greatest ("displayName", ["J D"]) (by decide) (by decide) (by decide)
      rw [hvalues, hlast a ha.mem ha.field hle]
    · exact absurd (hempty ("CN", ["Jane"]) (by decide) (by decide)) (by decide)
  · obtain ⟨owned, howned, hvalues⟩ := hlist .email rfl
    have hascending : InOrder (e.attributes.filter fun a =>
        Registry.person.fieldFor? a.1 = some .email)
        [("Mail", ["b", "a"]), ("rfc822Mailbox", ["c"])] := ⟨by decide, by decide⟩
    rw [hp, hvalues, howned.unique hascending]
    rfl

end DirectoryLookup.Ldap
