import DirectoryLookup.Json.Text

/-!
# JSON syntax trees

The tree of a JSON text keeps strings and numbers as they are written: a string is what stands
between its quotes, escapes included, and a number is its characters. What they stand for is
asked for where it is needed, so a part of a text that nobody looks at need only be well formed.

Two printers write a tree out again: `compact` without any blank, and `pretty` with one member or
item on a line.
-/

namespace DirectoryLookup.Json

/-- The syntax of a JSON value. -/
inductive Node
  | null
  | bool (b : Bool)
  /-- The characters of the number. -/
  | number (digits : List Char)
  /-- The text between the quotes, as written. -/
  | string (raw : List Char)
  | array (items : List Node)
  /-- The members in the order written; keys as between their quotes, and possibly repeated. -/
  | object (members : List (List Char × Node))
  deriving Repr, Inhabited

namespace Node

/-! ## Texts -/

/-- The string node of a text. -/
def ofText (text : String) : Node :=
  string (encode text.toList)

/-- The text of a string node. -/
def text? : Node → Option String
  | string raw => (decode raw).map String.ofList
  | _ => none

@[simp] theorem text?_ofText (text : String) : (ofText text).text? = some text := by
  simp [ofText, text?, decode_encode]

/-! ## Leaves -/

/-- A string as it is written, with its quotes. -/
def quoted (raw : List Char) : List Char :=
  '"' :: raw ++ ['"']

/-- The text of a node that holds no other nodes; a container counts as empty here. -/
def leaf : Node → List Char
  | null => "null".toList
  | bool true => "true".toList
  | bool false => "false".toList
  | number digits => digits
  | string raw => quoted raw
  | array _ => ['[', ']']
  | object _ => ['{', '}']

/-! ## Without blanks -/

mutual

/-- The text of a node, with no blank between tokens. -/
def compact : Node → List Char
  | array items => '[' :: compactItems items ++ [']']
  | object members => '{' :: compactMembers members ++ ['}']
  | n => n.leaf

/-- Items with commas between them. -/
def compactItems : List Node → List Char
  | [] => []
  | [n] => compact n
  | n :: ns => compact n ++ ',' :: compactItems ns

/-- Members with commas between them. -/
def compactMembers : List (List Char × Node) → List Char
  | [] => []
  | [(key, n)] => quoted key ++ ':' :: compact n
  | (key, n) :: ms => quoted key ++ ':' :: compact n ++ ',' :: compactMembers ms

end

/-! ## On several lines -/

/-- A line break and the indentation at a depth: two spaces for each level. -/
def newLine (depth : Nat) : List Char :=
  '\n' :: List.replicate (2 * depth) ' '

mutual

/-- The text of a node at a depth, with each item and member on a line of its own. An empty array
or object stays on one line. -/
def pretty (depth : Nat) : Node → List Char
  | array (n :: ns) => '[' :: prettyItems (depth + 1) (n :: ns) ++ newLine depth ++ [']']
  | object (m :: ms) => '{' :: prettyMembers (depth + 1) (m :: ms) ++ newLine depth ++ ['}']
  | n => n.leaf

/-- Items, each on a new line, with commas between them. -/
def prettyItems (depth : Nat) : List Node → List Char
  | [] => []
  | [n] => newLine depth ++ pretty depth n
  | n :: ns => newLine depth ++ pretty depth n ++ ',' :: prettyItems depth ns

/-- Members, each on a new line, with commas between them. -/
def prettyMembers (depth : Nat) : List (List Char × Node) → List Char
  | [] => []
  | [(key, n)] => newLine depth ++ quoted key ++ ':' :: ' ' :: pretty depth n
  | (key, n) :: ms =>
    newLine depth ++ quoted key ++ ':' :: ' ' :: pretty depth n ++ ',' :: prettyMembers depth ms

end

end Node

end DirectoryLookup.Json
