import DirectoryLookup.Json.Node
import DirectoryLookup.Person.Basic

/-!
# Reports of people

People are printed in one of two forms: plain, with a line for each person that holds the
distinguished name, the name to show and the mail addresses between tabs; or as a JSON array.
-/

namespace DirectoryLookup.Report

open Json (Node)

/-! ## Plain -/

/-- The line of a person, with its line feed. -/
def line (p : Person) : String :=
  p.dn ++ "\t" ++ p.displayName ++ "\t" ++ ", ".intercalate p.emails ++ "\n"

/-- The lines of several people. -/
def plain (people : List Person) : String :=
  String.join (people.map line)

/-! ## JSON -/

/-- The member of a value that may be missing. -/
def scalarMember (key : String) (value : Option String) : List (List Char × Node) :=
  (value.map fun v => (key.toList, Node.ofText v)).toList

/-- The member of a list; none if the list is empty. -/
def listMember (key : String) (values : List String) : List (List Char × Node) :=
  if values.isEmpty then [] else [(key.toList, .array (values.map Node.ofText))]

/-- A person as an object: the distinguished name, and what is set. -/
def personNode (p : Person) : Node :=
  .object <|
    ("dn".toList, Node.ofText p.dn) ::
    (scalarMember "uid" p.uid ++ scalarMember "firstName" p.firstName ++
      scalarMember "lastName" p.lastName ++ scalarMember "fullName" p.fullName ++
      scalarMember "title" p.title ++ scalarMember "department" p.department ++
      scalarMember "organization" p.organization ++
      scalarMember "employeeNumber" p.employeeNumber ++
      listMember "emails" p.emails ++ listMember "phones" p.phones ++
      listMember "mobiles" p.mobiles ++ listMember "addresses" p.addresses)

/-- People as a JSON array, followed by a line feed. -/
def json (people : List Person) : String :=
  String.ofList (Node.pretty 0 (.array (people.map personNode)) ++ ['\n'])

/-- People in the form asked for. -/
def people (asJson : Bool) (people : List Person) : String :=
  if asJson then json people else plain people

end DirectoryLookup.Report
