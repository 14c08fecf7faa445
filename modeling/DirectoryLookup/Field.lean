/-!
# The fields of a person

A directory stores a person under attribute names of its own; queries and settings speak of
twelve fields instead. The last four fields are lists, the others hold one value.
-/

namespace DirectoryLookup

/-- A field of a person record. -/
inductive Field
  | uid
  | firstName
  | lastName
  | fullName
  | title
  | department
  | organization
  | employeeNumber
  | email
  | phone
  | mobile
  | address
  deriving DecidableEq, Repr, Inhabited

namespace Field

/-- Every field, in the order in which attribute selections and default declarations list them. -/
def all : List Field :=
  [uid, firstName, lastName, fullName, title, department, organization, employeeNumber,
    email, phone, mobile, address]

/-- The name under which queries and settings address the field. -/
def name : Field → String
  | uid => "uid"
  | firstName => "firstName"
  | lastName => "lastName"
  | fullName => "fullName"
  | title => "title"
  | department => "department"
  | organization => "organization"
  | employeeNumber => "employeeNumber"
  | email => "email"
  | phone => "phone"
  | mobile => "mobile"
  | address => "address"

/-- The field with exactly this name; case matters. -/
def ofName? (name : String) : Option Field :=
  all.find? (·.name == name)

/-- Whether the field keeps every value it is given, rather than the last one. -/
def isList : Field → Bool
  | email | phone | mobile | address => true
  | _ => false

/-- The attribute names a field stands for unless the settings say otherwise, in the form of an
alias declaration. -/
def defaultAliases : Field → String
  | uid => "uid"
  | firstName => "givenName"
  | lastName => "sn"
  | fullName => "cn, displayName"
  | title => "title"
  | department => "ou; departmentNumber"
  | organization => "o"
  | employeeNumber => "employeeNumber"
  | email => "mail, rfc822Mailbox, mailAlternateAddress"
  | phone => "telephoneNumber homePhone"
  | mobile => "mobile"
  | address => "postalAddress; street"

theorem mem_all (f : Field) : f ∈ all := by
  cases f <;> decide

theorem all_nodup : all.Nodup := by
  decide

@[simp] theorem ofName?_name (f : Field) : ofName? f.name = some f := by
  cases f <;> decide

/-- A name is understood exactly when it is the name of the field found. -/
theorem ofName?_eq_some_iff {name : String} {f : Field} :
    ofName? name = some f ↔ f.name = name := by
  constructor
  · intro h
    simpa using List.find?_some h
  · rintro rfl
    exact ofName?_name f

end Field

end DirectoryLookup
