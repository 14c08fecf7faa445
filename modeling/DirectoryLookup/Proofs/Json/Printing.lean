import DirectoryLookup.Proofs.Json.Grammar

/-!
# What the printers write

A tree is writable when its strings and keys could stand between quotes and its numbers are
numbers; strings made from texts are always so (`raw_encode`).

**Theorems (`writes_compact`, `writes_pretty`).** The compact text of a writable tree writes the
tree, so it is read back as that tree (`read?_compact`), and so does its text on several lines.
-/

namespace DirectoryLookup.Json

open Number (hexValue? hexDigit)

/-! ## Writable trees -/

/-- Strings and keys could stand between quotes, and numbers are numbers. -/
inductive Node.Writable : Node → Prop
  | null : Writable .null
  | bool (b : Bool) : Writable (.bool b)
  | number {digits : List Char} : Numeral digits → Writable (.number digits)
  | string {raw : List Char} : Raw raw → Writable (.string raw)
  | array {items : List Node} : (∀ n ∈ items, Writable n) → Writable (.array items)
  | object {members : List (List Char × Node)} :
      (∀ m ∈ members, Raw m.1) → (∀ m ∈ members, Writable m.2) → Writable (.object members)

theorem isSome_hexValue?_hexDigit : ∀ n < 16, (hexValue? (hexDigit n)).isSome = true := by
  decide

/-- What stands for a character can stand between quotes. -/
theorem raw_encodeChar_append (c : Char) {rest : List Char} (h : Raw rest) :
    Raw (encodeChar c ++ rest) := by
  unfold encodeChar
  split
  case h_8 _ hquote hbackslash _ _ _ _ _ =>
    split
    · next hlt =>
      have h₁ := isSome_hexValue?_hexDigit (c.toNat / 16) (by omega)
      have h₂ := isSome_hexValue?_hexDigit (c.toNat % 16) (by omega)
      exact .hex rfl rfl h₁ h₂ h
    · next hge => exact .plain hquote hbackslash (by omega) h
  all_goals exact .short rfl h

/-- A text is written with what can stand between quotes. -/
theorem raw_encode (text : List Char) : Raw (encode text) := by
  induction text with
  | nil => exact .nil
  | cons c text ih =>
    rw [encode_cons]
    exact raw_encodeChar_append c ih

/-- A key without characters to escape stands between quotes as it is. -/
theorem raw_of_encode_eq {key : List Char} (h : encode key = key) : Raw key :=
  h ▸ raw_encode key

theorem writable_ofText (text : String) : (Node.ofText text).Writable :=
  .string (raw_encode text.toList)

/-! ## Things with commas between them -/

theorem isBlank_nil : IsBlank [] := by
  intro c hc
  cases hc

theorem isBlank_cons {c : Char} {blank : List Char} (hc : isSpace c = true) (h : IsBlank blank) :
    IsBlank (c :: blank) :=
  List.forall_mem_cons.2 ⟨hc, h⟩

/-- A printer that puts the same blanks before each of several things, and commas between them,
prints them one after the other. Other blanks may follow the last. -/
theorem separated_of_print {α : Type} {R : α → List Char → Prop} (print : List α → List Char)
    {text : α → List Char} {before after : List Char} (hbefore : IsBlank before)
    (hafter : IsBlank after) (hlast : ∀ a, print [a] = before ++ text a)
    (hmore : ∀ a b as, print (a :: b :: as) = before ++ text a ++ ',' :: print (b :: as))
    {as : List α} (hne : as ≠ []) (h : ∀ a ∈ as, R a (text a)) :
    Separated R as (print as ++ after) := by
  induction as with
  | nil => exact absurd rfl hne
  | cons a as ih =>
    have ha := h a List.mem_cons_self
    cases as with
    | nil =>
      rw [hlast]
      exact .last hbefore ha hafter
    | cons b as =>
      have hrest := ih (List.cons_ne_nil b as) fun a ha => h a (List.mem_cons_of_mem _ ha)
      simpa [hmore] using Separated.more hbefore ha isBlank_nil hrest

variable {n : Node} {items : List Node} {members : List (List Char × Node)}

/-! ## Without blanks -/

theorem separated_compactItems (hne : items ≠ []) (h : ∀ n ∈ items, Writes n n.compact) :
    Separated Writes items (Node.compactItems items) := by
  simpa using separated_of_print Node.compactItems isBlank_nil isBlank_nil
    (fun n => by simp [Node.compactItems]) (fun n m ns => by simp [Node.compactItems]) hne h

theorem separated_compactMembers (hne : members ≠ []) (hkey : ∀ m ∈ members, Raw m.1)
    (h : ∀ m ∈ members, Writes m.2 m.2.compact) :
    Separated (Member Writes) members (Node.compactMembers members) := by
  have hmember : ∀ m ∈ members, Member Writes m (Node.quoted m.1 ++ ':' :: m.2.compact) := by
    intro m hm
    simpa using Member.mk (hkey m hm) isBlank_nil isBlank_nil (h m hm)
  simpa using separated_of_print Node.compactMembers isBlank_nil isBlank_nil
    (fun m => by simp [Node.compactMembers]) (fun m m' ms => by simp [Node.compactMembers]) hne
    hmember

/-- **The compact text of a writable tree writes it.** -/
theorem writes_compact (h : n.Writable) : Writes n n.compact := by
  induction h with
  | null => exact .null
  | bool b =>
    cases b with
    | true => exact .isTrue
    | false => exact .isFalse
  | number h => exact .number h
  | string h => exact .string h
  | @array items _ ih =>
    by_cases hne : items = []
    · subst hne
      exact .emptyArray isBlank_nil
    · exact .array (separated_compactItems hne ih)
  | @object members hkey _ ih =>
    by_cases hne : members = []
    · subst hne
      exact .emptyObject isBlank_nil
    · exact .object (separated_compactMembers hne hkey ih)

/-- The compact text of a writable tree is read back. -/
theorem read?_compact (h : n.Writable) : Node.read? n.compact = some n := by
  have hread := read?_of_writes isBlank_nil (writes_compact h) isBlank_nil
  rwa [List.nil_append, List.append_nil] at hread

/-! ## On several lines -/

theorem isBlank_newLine (depth : Nat) : IsBlank (Node.newLine depth) := by
  refine isBlank_cons rfl fun c hc => ?_
  rw [List.eq_of_mem_replicate hc]
  rfl

theorem separated_prettyItems (depth : Nat) (hne : items ≠ [])
    (h : ∀ n ∈ items, Writes n (n.pretty (depth + 1))) :
    Separated Writes items (Node.prettyItems (depth + 1) items ++ Node.newLine depth) :=
  separated_of_print (Node.prettyItems (depth + 1)) (isBlank_newLine (depth + 1))
    (isBlank_newLine depth) (fun n => by simp [Node.prettyItems])
    (fun n m ns => by simp [Node.prettyItems]) hne h

theorem separated_prettyMembers (depth : Nat) (hne : members ≠ []) (hkey : ∀ m ∈ members, Raw m.1)
    (h : ∀ m ∈ members, Writes m.2 (m.2.pretty (depth + 1))) :
    Separated (Member Writes) members
      (Node.prettyMembers (depth + 1) members ++ Node.newLine depth) := by
  have hspace : IsBlank [' '] := isBlank_cons rfl isBlank_nil
  have hmember : ∀ m ∈ members,
      Member Writes m (Node.quoted m.1 ++ ':' :: ' ' :: m.2.pretty (depth + 1)) := by
    intro m hm
    simpa using Member.mk (hkey m hm) isBlank_nil hspace (h m hm)
  exact separated_of_print (Node.prettyMembers (depth + 1)) (isBlank_newLine (depth + 1))
    (isBlank_newLine depth) (fun m => by simp [Node.prettyMembers])
    (fun m m' ms => by simp [Node.prettyMembers]) hne hmember

/-- **The text of a writable tree on several lines writes it**, however deep it is indented. -/
theorem writes_pretty (h : n.Writable) (depth : Nat) : Writes n (n.pretty depth) := by
  induction h generalizing depth with
  | null => exact .null
  | bool b =>
    cases b with
    | true => exact .isTrue
    | false => exact .isFalse
  | number h => exact .number h
  | string h => exact .string h
  | @array items _ ih =>
    cases items with
    | nil => exact .emptyArray isBlank_nil
    | cons n items =>
      have hitems := separated_prettyItems depth (List.cons_ne_nil n items)
        fun n hn => ih n hn (depth + 1)
      simpa [Node.pretty] using Writes.array hitems
  | @object members hkey _ ih =>
    cases members with
    | nil => exact .emptyObject isBlank_nil
    | cons m members =>
      have hmembers := separated_prettyMembers depth (List.cons_ne_nil m members) hkey
        fun m hm => ih m hm (depth + 1)
      simpa [Node.pretty] using Writes.object hmembers

end DirectoryLookup.Json
