import DirectoryLookup.Entry
import DirectoryLookup.Person.Basic
import DirectoryLookup.Registry

/-!
# Reading a person from an entry

The attributes of an entry are taken in the order they come. One that the registry gives to a
field hands its values to that field; any other is passed over.
-/

namespace DirectoryLookup.Person

/-- The record after one attribute of an entry. -/
def takeAttribute (r : Registry) (p : Person) (attr : String × List String) : Person :=
  match r.fieldFor? attr.1 with
  | some field => p.give field attr.2
  | none => p

/-- The person that an entry describes. -/
def ofEntry (r : Registry) (entry : Entry) : Person :=
  entry.attributes.foldl (takeAttribute r) { dn := entry.dn }

theorem takeAttribute_of_fieldFor?_eq_none {r : Registry} {attr : String × List String}
    (h : r.fieldFor? attr.1 = none) (p : Person) : takeAttribute r p attr = p := by
  unfold takeAttribute
  rw [h]

variable (r : Registry)

@[simp] theorem dn_takeAttribute (p : Person) (a : String × List String) :
    (takeAttribute r p a).dn = p.dn := by
  unfold takeAttribute
  split <;> simp

/-- A person has the distinguished name of the entry it is read from. -/
@[simp] theorem dn_ofEntry (entry : Entry) : (ofEntry r entry).dn = entry.dn := by
  unfold ofEntry
  generalize hp : ({ dn := entry.dn } : Person) = p
  rw [show entry.dn = p.dn by simp [← hp]]
  clear hp
  induction entry.attributes generalizing p with
  | nil => rfl
  | cons a as ih => simpa using ih (takeAttribute r p a)

end DirectoryLookup.Person
