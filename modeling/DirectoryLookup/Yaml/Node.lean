import DirectoryLookup.Number.Double
import DirectoryLookup.Yaml.Token

/-!
# YAML nodes

A document is a node: a scalar, a list, or a table, whose keys are nodes too. A plain text is taken
for what it looks like, unless a tag says otherwise; a text between quotes and a block are texts.
An alias repeats the node with its anchor.

A node that contradicts its tag, or is repeated inside itself, is of no use. In a table it cannot
be a key: the node behind it is taken for the key in its place.
-/

namespace DirectoryLookup.Yaml

open Number

/-! ## Scalars -/

/-- A scalar. -/
inductive Scalar
  | null
  | bool (b : Bool)
  | integer (n : Int)
  /-- A number with a fraction or an exponent, or one without an end, as written. -/
  | real (text : List Char)
  | text (s : List Char)
  deriving DecidableEq, Repr

/-- How a plain text is to be understood. -/
inductive Kind
  /-- As what it looks like. -/
  | any
  | bool
  | int
  | float
  | null
  | text
  deriving DecidableEq, Repr

/-- The words for true. -/
def trueWords : List String :=
  ["true", "True", "TRUE"]

/-- The words for false. -/
def falseWords : List String :=
  ["false", "False", "FALSE"]

/-- The boolean that a text writes. Its letters are all small, all capital, or small but for the
first: `tRUE` is a text. -/
def boolean? (text : List Char) : Option Bool :=
  let word := String.ofList text
  if word ∈ trueWords then some true
  else if word ∈ falseWords then some false
  else none

/-- The integer of 64 bits that a text writes. -/
def integer? (text : List Char) : Option Int :=
  (intOf? text).filter isInt64

/-- The integer of 64 bits that digits of a base write, with or without a sign in front. -/
def integerOfBase? (base : Nat) (text : List Char) : Option Int :=
  let (negative, digits) := unsign text
  let value := (natOfBase? base digits).map fun n => if negative then -(n : Int) else (n : Int)
  value.filter isInt64

/-- The words for numbers that are none, or have no end. -/
def realWords : List String :=
  [".inf", ".Inf", ".INF", "+.inf", "+.Inf", "+.INF", "-.inf", "-.Inf", "-.INF",
    ".nan", ".NaN", ".NAN"]

/-- Whether a text looks like a number with a fraction or an exponent. -/
def isReal (text : List Char) : Bool :=
  String.ofList text ∈ realWords || (text.any (·.isDigit) && (Double.ofText? text).isSome)

/-- The number that a text in front of others looks like: one of base sixteen or eight, or one with
a plus. -/
def markedInteger? : List Char → Option Int
  | '0' :: 'x' :: digits => integerOfBase? 16 digits
  | '0' :: 'o' :: digits => integerOfBase? 8 digits
  | '+' :: number => integer? number
  | _ => none

/-- The scalar that a plain text looks like. -/
def Scalar.ofPlain (text : List Char) : Scalar :=
  if let some n := markedInteger? text then .integer n
  else if text = [] ∨ text = ['~'] ∨ text = "null".toList then .null
  else if let some b := boolean? text then .bool b
  else if let some n := integer? text then .integer n
  else if isReal text then .real text
  else .text text

/-- The scalar that a plain text makes, if it is what it has to be. -/
def Scalar.ofPlain? (kind : Kind) (text : List Char) : Option Scalar :=
  match kind with
  | .any => some (.ofPlain text)
  | .text => some (.text text)
  | .bool => (boolean? text).map .bool
  | .int => (integer? text).map .integer
  | .float => if isReal text then some (.real text) else none
  | .null => if text = ['~'] ∨ text = "null".toList then some .null else none

/-! ## Nodes -/

/-- What a document is made of. -/
inductive Node
  | scalar (value : Scalar)
  | list (items : List Node)
  | table (members : List (Node × Node))
  /-- It contradicts its tag, or stands inside itself. -/
  | useless
  deriving Repr, Inhabited

namespace Node

/-- The node of a plain text. -/
def ofPlain (kind : Kind) (text : List Char) : Node :=
  ((Scalar.ofPlain? kind text).map scalar).getD useless

/-- The node where nothing is written. -/
def empty : Node :=
  .scalar .null

/-- Whether a node can be a key. -/
def isUseless : Node → Bool
  | useless => true
  | _ => false

/-- The scalar that a node is. -/
def scalar? : Node → Option Scalar
  | scalar s => some s
  | _ => none

/-- Keys with their values, given one after the other. A key without a value does not count. -/
def pair : List Node → List (Node × Node)
  | [] => []
  | key :: nodes =>
    if key.isUseless then pair nodes
    else
      match nodes with
      | [] => []
      | value :: nodes => (key, value) :: pair nodes

/-- The table of keys and values given one after the other, unless a scalar is a key twice. -/
def ofMembers? (nodes : List Node) : Option Node :=
  let members := pair nodes
  if (members.filterMap (·.1.scalar?)).Nodup then some (table members) else none

end Node

/-! ## Composing nodes -/

/-- What is known between two tokens of a document. -/
structure Composer where
  tokens : List Token
  /-- What a handle stands for, as the last directive says. -/
  handle : List Char × List Char
  /-- The numbers of the anchors, the last one first. -/
  anchors : List (List Char × Nat) := []
  /-- The nodes with an anchor that are complete. -/
  nodes : List (Nat × Node) := []

/-- The handle of the tags that YAML itself defines, written out. -/
def coreHandle : List Char :=
  "tag:yaml.org,2002:".toList

/-- The handle that stands for the core handle without a directive. -/
def coreShorthand : List Char :=
  ['!', '!']

/-- The kind that a core tag names; any other tag makes a text. -/
def Kind.ofSuffix (suffix : List Char) : Kind :=
  if suffix = "bool".toList then .bool
  else if suffix = "int".toList then .int
  else if suffix = "float".toList then .float
  else if suffix = "null".toList then .null
  else .text

namespace Composer

/-- The composer with other tokens to come. -/
def goTo (c : Composer) (tokens : List Token) : Composer :=
  { c with tokens := tokens }

/-- The kind that a tag names. A handle with a name needs a directive. -/
def kindOf? (c : Composer) (t : Tag) : Option Kind :=
  let declared := t.handle = c.handle.1 ∧ t.handle ≠ []
  let address :=
    if declared then c.handle.2 else if t.handle = coreShorthand then coreHandle else t.handle
  if !declared ∧ t.handle ≠ coreShorthand ∧ 2 ≤ t.handle.length then none
  else some (if address = coreHandle then Kind.ofSuffix t.suffix else .text)

/-- Gives the anchor that was met a number. -/
def register (c : Composer) (name : List Char) : Nat × Composer :=
  let n := c.anchors.length
  (n, { c with anchors := (name, n) :: c.anchors })

/-- The anchor and the kind in front of a node, in any order, if there are any. -/
def properties? (c : Composer) : Option (Option Nat × Option Kind × Composer) :=
  match c.tokens with
  | .anchor name :: .tag t :: rest =>
    let (n, c) := c.register name
    (c.kindOf? t).map fun kind => (some n, some kind, c.goTo rest)
  | .tag t :: .anchor name :: rest =>
    let (n, c) := c.register name
    (c.kindOf? t).map fun kind => (some n, some kind, c.goTo rest)
  | .anchor name :: rest =>
    let (n, c) := c.register name
    some (some n, none, c.goTo rest)
  | .tag t :: rest => (c.kindOf? t).map fun kind => (none, some kind, c.goTo rest)
  | _ => some (none, none, c)

/-- The node that an alias repeats. -/
def alias? (c : Composer) (name : List Char) : Option Node :=
  (c.anchors.lookup name).map fun n => (c.nodes.lookup n).getD .useless

/-- Keeps a node that is complete, if it has an anchor. -/
def keep (c : Composer) (anchor : Option Nat) (node : Node) : Composer :=
  match anchor with
  | some n => { c with nodes := (n, node) :: c.nodes }
  | none => c

/-- Whether the next token is one of those after which nothing more of an entry comes. -/
def isAt (c : Composer) (ends : List Token) : Bool :=
  c.tokens.head?.any (· ∈ ends)

mutual

/-- A node. Whether it may be a block collection, and whether the entries of a list need no
indentation of their own. An anchor or a tag with nothing behind it has a plain text of no
characters. Each step down takes `fuel`. -/
def node? (fuel : Nat) (inBlock bare : Bool) (c : Composer) : Option (Node × Composer) :=
  match fuel with
  | 0 => none
  | fuel + 1 =>
    match c.tokens with
    | .alias name :: rest => (c.alias? name).map (·, c.goTo rest)
    | _ =>
      match c.properties? with
      | none => none
      | some (anchor, kind, c) =>
        let blank :=
          if anchor.isSome ∨ kind.isSome then some (.ofPlain (kind.getD .any) [], c) else none
        let content := match c.tokens with
          | .entry :: _ => if bare then bareEntries? fuel [] c else blank
          | .plain text :: rest => some (.ofPlain (kind.getD .any) text, c.goTo rest)
          | .quoted text :: rest => some (.scalar (.text text), c.goTo rest)
          | .openBracket :: rest => flowEntries? fuel true [] (c.goTo rest)
          | .openBrace :: rest => flowMembers? fuel true [] (c.goTo rest)
          | tokens =>
            match inBlock, tokens with
            | true, .blockSequence :: rest => blockEntries? fuel [] (c.goTo rest)
            | true, .blockMapping :: rest => blockMembers? fuel [] (c.goTo rest)
            | _, _ => blank
        content.map fun (node, c) => (node, c.keep anchor node)
termination_by structural fuel

/-- A node, or nothing where one of these tokens follows. -/
def nodeBefore? (fuel : Nat) (inBlock bare : Bool) (ends : List Token) (c : Composer) :
    Option (Node × Composer) :=
  match fuel with
  | 0 => none
  | fuel + 1 => if c.isAt ends then some (.empty, c) else node? fuel inBlock bare c
termination_by structural fuel

/-- The rest of a list whose entries are not indented, after items, the last one first. -/
def bareEntries? (fuel : Nat) (items : List Node) (c : Composer) : Option (Node × Composer) :=
  match fuel with
  | 0 => none
  | fuel + 1 =>
    match c.tokens with
    | .entry :: rest =>
      match nodeBefore? fuel true false [.entry, .key, .value, .blockEnd] (c.goTo rest) with
      | some (item, c) => bareEntries? fuel (item :: items) c
      | none => none
    | _ => some (.list items.reverse, c)
termination_by structural fuel

/-- The rest of a list in a block, after items, the last one first. -/
def blockEntries? (fuel : Nat) (items : List Node) (c : Composer) : Option (Node × Composer) :=
  match fuel with
  | 0 => none
  | fuel + 1 =>
    match c.tokens with
    | .blockEnd :: rest => some (.list items.reverse, c.goTo rest)
    | .entry :: rest =>
      match nodeBefore? fuel true false [.entry, .blockEnd] (c.goTo rest) with
      | some (item, c) => blockEntries? fuel (item :: items) c
      | none => none
    | _ => none
termination_by structural fuel

/-- The rest of a table in a block, after keys and values, the last one first. -/
def blockMembers? (fuel : Nat) (nodes : List Node) (c : Composer) : Option (Node × Composer) :=
  match fuel with
  | 0 => none
  | fuel + 1 =>
    let ends := [.key, .value, .blockEnd]
    let key := match c.tokens with
      | .key :: rest => nodeBefore? fuel true true ends (c.goTo rest)
      | .value :: _ => some (.empty, c)
      | _ => none
    match c.tokens, key with
    | .blockEnd :: rest, _ => (Node.ofMembers? nodes.reverse).map (·, c.goTo rest)
    | _, none => none
    | _, some (key, c) =>
      let value := match c.tokens with
        | .value :: rest => nodeBefore? fuel true true ends (c.goTo rest)
        | _ => some (.empty, c)
      match value with
      | some (value, c) => blockMembers? fuel (value :: key :: nodes) c
      | none => none
termination_by structural fuel

/-- The value in a flow collection: what follows a colon, or nothing. -/
def flowValue? (fuel : Nat) (ends : List Token) (c : Composer) : Option (Node × Composer) :=
  match fuel with
  | 0 => none
  | fuel + 1 =>
    match c.tokens with
    | .value :: rest => nodeBefore? fuel false false ends (c.goTo rest)
    | _ => some (.empty, c)
termination_by structural fuel

/-- The rest of a list between brackets, after items, the last one first. An item with a key is a
table of one member. -/
def flowEntries? (fuel : Nat) (first : Bool) (items : List Node) (c : Composer) :
    Option (Node × Composer) :=
  match fuel with
  | 0 => none
  | fuel + 1 =>
    let start := match first, c.tokens with
      | false, .comma :: rest => rest
      | _, tokens => tokens
    match c.tokens, start with
    | .closeBracket :: rest, _ => some (.list items.reverse, c.goTo rest)
    | _, .closeBracket :: rest => some (.list items.reverse, c.goTo rest)
    | tokens, start =>
      if !first ∧ tokens.head? ≠ some .comma then none
      else
        let item := match start with
          | .key :: rest =>
            match node? fuel false false (c.goTo rest) with
            | some (key, c) =>
              (flowValue? fuel [.comma, .closeBracket] c).bind fun (value, c) =>
                (Node.ofMembers? [key, value]).map (·, c)
            | none => none
          | start => node? fuel false false (c.goTo start)
        match item with
        | some (item, c) => flowEntries? fuel false (item :: items) c
        | none => none
termination_by structural fuel

/-- The rest of a table between braces, after keys and values, the last one first. -/
def flowMembers? (fuel : Nat) (first : Bool) (nodes : List Node) (c : Composer) :
    Option (Node × Composer) :=
  match fuel with
  | 0 => none
  | fuel + 1 =>
    let start := match first, c.tokens with
      | false, .comma :: rest => rest
      | _, tokens => tokens
    match c.tokens, start with
    | .closeBrace :: rest, _ => (Node.ofMembers? nodes.reverse).map (·, c.goTo rest)
    | _, .closeBrace :: rest => (Node.ofMembers? nodes.reverse).map (·, c.goTo rest)
    | tokens, start =>
      if !first ∧ tokens.head? ≠ some .comma then none
      else
        let ends := [.comma, .closeBrace]
        let key := match start with
          | .key :: rest => nodeBefore? fuel false false (.value :: ends) (c.goTo rest)
          | .value :: _ => some (.empty, c.goTo start)
          | start => node? fuel false false (c.goTo start)
        let value := key.bind fun (key, c) =>
          (flowValue? fuel ends c).map fun (value, c) => (key, value, c)
        match value with
        | some (key, value, c) => flowMembers? fuel false (value :: key :: nodes) c
        | none => none
termination_by structural fuel

end

end Composer

/-! ## Documents -/

/-- The tokens after the directives in front of a document, and what a handle stands for. The last
directive alone counts, and the version is given at most once. -/
def directives? (versioned : Bool) (handle : List Char × List Char) :
    List Token → Option ((List Char × List Char) × List Token)
  | .directive .version :: rest => if versioned then none else directives? true ([], []) rest
  | .directive (.handle name address) :: rest => directives? versioned (name, address) rest
  | tokens => some (handle, tokens)

/-- Whether a token stands outside of documents. -/
def Token.isOutside : Token → Bool
  | .directive _ | .documentStart | .documentEnd => true
  | _ => false

/-- The node of a document that tokens start with, and the tokens that follow. A document needs a
mark in front if it has directives, or if it is empty. -/
def document? (tokens : List Token) : Option (Node × List Token) := do
  let (handle, rest) ← directives? false ([], []) tokens
  let fuel := 3 * tokens.length + 3
  let c : Composer := { tokens := rest, handle := handle }
  let (node, c) ← match rest with
    | .documentStart :: rest =>
      if rest.head?.all (·.isOutside) then some (.empty, c.goTo rest)
      else (c.goTo rest).node? fuel true false
    | _ => if rest.length < tokens.length then none else c.node? fuel true false
  return (node, c.tokens)

/-- The node of a text, or nothing for a text without a document. There is at most one document. -/
def read? (text : List Char) : Option (Option Node) := do
  match (← tokens? text).dropWhile (· = .documentEnd) with
  | [] => return none
  | tokens =>
    let (node, rest) ← document? tokens
    if rest.any (· ≠ .documentEnd) then none
    return some node

end DirectoryLookup.Yaml
