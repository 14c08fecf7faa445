/-!
# Values inside a filter

Five characters have a meaning in a filter: `*`, `(`, `)`, the backslash and NUL. Escaping writes
each of them as a backslash and two hexadecimal digits, and every other character as itself.

Main statements: `unescape_escape`, unescaping undoes escaping; `escape_append`, texts are escaped
piece by piece.
-/

namespace DirectoryLookup.Filter

/-- How a value is put into a filter. -/
inductive Escaping
  /-- As it is; characters that mean something in a filter keep their meaning. -/
  | verbatim
  /-- With escapes, so that the value stands for itself whatever it holds. -/
  | escaped
  deriving DecidableEq, Repr

instance : Inhabited Escaping := ⟨.verbatim⟩

/-- What an escaped value has in place of a character. -/
def escapeChar : Char → List Char
  | '*' => ['\\', '2', 'a']
  | '(' => ['\\', '2', '8']
  | ')' => ['\\', '2', '9']
  | '\\' => ['\\', '5', 'c']
  | '\x00' => ['\\', '0', '0']
  | c => [c]

/-- The value with every character that means something in a filter escaped. -/
def escape (value : List Char) : List Char :=
  value.flatMap escapeChar

/-- The value whose escaped form this is, for a text that is one. A backslash and the two digits
of an escape stand for a character, and all else for itself. -/
def unescape : List Char → List Char
  | '\\' :: '2' :: 'a' :: s => '*' :: unescape s
  | '\\' :: '2' :: '8' :: s => '(' :: unescape s
  | '\\' :: '2' :: '9' :: s => ')' :: unescape s
  | '\\' :: '5' :: 'c' :: s => '\\' :: unescape s
  | '\\' :: '0' :: '0' :: s => '\x00' :: unescape s
  | c :: s => c :: unescape s
  | [] => []

/-- The value as it stands in a filter. -/
def Escaping.apply : Escaping → String → String
  | verbatim, value => value
  | escaped, value => String.ofList (escape value.toList)

/-! ## Laws of escaping -/

@[simp] theorem escape_cons (c : Char) (s : List Char) :
    escape (c :: s) = escapeChar c ++ escape s := by
  simp [escape]

/-- Texts are escaped piece by piece. -/
theorem escape_append (a b : List Char) : escape (a ++ b) = escape a ++ escape b := by
  simp [escape]

theorem unescape_escapeChar_append (c : Char) (s : List Char) :
    unescape (escapeChar c ++ s) = c :: unescape s := by
  unfold escapeChar
  split <;> simp_all [unescape]

/-- **Unescaping undoes escaping.** -/
theorem unescape_escape (value : List Char) : unescape (escape value) = value := by
  induction value with
  | nil => rfl
  | cons c s ih => simp [unescape_escapeChar_append, ih]

theorem toList_apply_escaped (value : String) :
    (Escaping.escaped.apply value).toList = escape value.toList := by
  rw [Escaping.apply, String.toList_ofList]

end DirectoryLookup.Filter
