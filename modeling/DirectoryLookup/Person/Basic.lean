import DirectoryLookup.Field

/-!
# Person records

A record has one place for each field. Giving a list field some values appends them; giving a
scalar field some values keeps the last of them, and an empty list of values changes neither.

Main statement: `values_give`, what every field holds after one field is given some values.
-/

namespace DirectoryLookup

/-- A person as read from a directory entry. -/
structure Person where
  /-- The distinguished name of the entry. -/
  dn : String
  uid : Option String := none
  firstName : Option String := none
  lastName : Option String := none
  fullName : Option String := none
  title : Option String := none
  department : Option String := none
  organization : Option String := none
  employeeNumber : Option String := none
  emails : List String := []
  phones : List String := []
  mobiles : List String := []
  addresses : List String := []
  deriving DecidableEq, Repr, Inhabited

namespace Person

/-- The value of a scalar field after it is given `values`: the last of them, if any. -/
def lastOr (old : Option String) (values : List String) : Option String :=
  values.getLast?.or old

/-- The record after `field` is given `values`. -/
def give (p : Person) (field : Field) (values : List String) : Person :=
  match field with
  | .uid => { p with uid := lastOr p.uid values }
  | .firstName => { p with firstName := lastOr p.firstName values }
  | .lastName => { p with lastName := lastOr p.lastName values }
  | .fullName => { p with fullName := lastOr p.fullName values }
  | .title => { p with title := lastOr p.title values }
  | .department => { p with department := lastOr p.department values }
  | .organization => { p with organization := lastOr p.organization values }
  | .employeeNumber => { p with employeeNumber := lastOr p.employeeNumber values }
  | .email => { p with emails := p.emails ++ values }
  | .phone => { p with phones := p.phones ++ values }
  | .mobile => { p with mobiles := p.mobiles ++ values }
  | .address => { p with addresses := p.addresses ++ values }

/-- What a field holds: at most one value unless the field is a list. -/
def values (p : Person) : Field → List String
  | .uid => p.uid.toList
  | .firstName => p.firstName.toList
  | .lastName => p.lastName.toList
  | .fullName => p.fullName.toList
  | .title => p.title.toList
  | .department => p.department.toList
  | .organization => p.organization.toList
  | .employeeNumber => p.employeeNumber.toList
  | .email => p.emails
  | .phone => p.phones
  | .mobile => p.mobiles
  | .address => p.addresses

/-- Whether there is a surname that is not empty. Searches give no person without one. -/
def hasSurname (p : Person) : Bool :=
  p.lastName.any (· ≠ "")

/-- The name to show: the full name if it is set, else the given name and the surname, as far as
they are set, with a space between. -/
def displayName (p : Person) : String :=
  p.fullName.getD (" ".intercalate (p.firstName.toList ++ p.lastName.toList))

/-! ## Giving and holding -/

/-- What a field holds once it is given more: a list field all values, a scalar field the last. -/
def extended (field : Field) (held more : List String) : List String :=
  if field.isList then held ++ more else (more.getLast?.or held.getLast?).toList

@[simp] theorem dn_give (p : Person) (f : Field) (vs : List String) : (p.give f vs).dn = p.dn := by
  cases f <;> rfl

theorem getLast?_toList (o : Option String) : o.toList.getLast? = o := by
  cases o <;> rfl

theorem values_give_self (p : Person) (f : Field) (vs : List String) :
    (p.give f vs).values f = extended f (p.values f) vs := by
  cases f <;> simp [give, values, extended, Field.isList, lastOr, getLast?_toList]

theorem values_give_of_ne (p : Person) {f g : Field} (h : g ≠ f) (vs : List String) :
    (p.give f vs).values g = p.values g := by
  cases f <;> cases g <;> first | rfl | exact absurd rfl h

/-- **Giving a field values changes that field alone**, and by the rule for its kind. -/
theorem values_give (p : Person) (f g : Field) (vs : List String) :
    (p.give f vs).values g = if g = f then extended f (p.values f) vs else p.values g := by
  split
  · subst g
    exact p.values_give_self f vs
  · exact p.values_give_of_ne (by assumption) vs

/-- A record is settled by its distinguished name and what its fields hold. -/
theorem ext_values {p q : Person} (hdn : p.dn = q.dn) (h : ∀ f, p.values f = q.values f) :
    p = q := by
  have toList_inj : ∀ {a b : Option String}, a.toList = b.toList → a = b := by
    intro a b hab
    cases a <;> cases b <;> simp_all
  have h1 := toList_inj (h .uid)
  have h2 := toList_inj (h .firstName)
  have h3 := toList_inj (h .lastName)
  have h4 := toList_inj (h .fullName)
  have h5 := toList_inj (h .title)
  have h6 := toList_inj (h .department)
  have h7 := toList_inj (h .organization)
  have h8 := toList_inj (h .employeeNumber)
  have h9 : p.emails = q.emails := h .email
  have h10 : p.phones = q.phones := h .phone
  have h11 : p.mobiles = q.mobiles := h .mobile
  have h12 : p.addresses = q.addresses := h .address
  cases p; cases q
  simp_all

end Person

end DirectoryLookup
