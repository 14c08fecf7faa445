import DirectoryLookup.Expression.Json
import Mathlib.Data.List.Forall2

/-!
# The JSON trees of an expression

Which trees stand for an expression (`Spelled`), however keys and texts are escaped, and whatever
members stand beside the field and the value of a condition.

**Nesting.** A condition is an object or an array in an object, and a group is an array in an
object. The reader has a number of levels to spend on arrays and objects, and spends two on a
condition or a group and one on a negation. What a condition holds beside its field and its value is
passed over and costs nothing.

**Theorem (`ofNode?_eq_some_iff`).** With a number of levels left, a tree is read as an expression
exactly when it stands for that expression and the nesting of the expression is within the levels.

What the reader does with one tree is said once (`ReadAs`, and `takeMember_eq_some_iff` for one
member of a condition), and the recursion goes over what is said there.
-/

namespace DirectoryLookup.Expression

open Json (Node decode)

/-! ## Nesting -/

mutual

/-- How deep the arrays and objects that write an expression go. -/
def nesting : Expression → Nat
  | and parts | or parts => 2 + nestingOfAll parts
  | not part => 1 + nesting part
  | equals _ _ | contains _ _ => 2

/-- The greatest nesting among several expressions; zero if there are none. -/
def nestingOfAll : List Expression → Nat
  | [] => 0
  | e :: es => max (nesting e) (nestingOfAll es)

end

/-! ## Conditions -/

/-- What stands under a key, in the order written. -/
def nodesUnder (key : String) (members : List (List Char × Node)) : List Node :=
  (members.filter fun m => decode m.1 = some key.toList).map Prod.snd

/-- The node stands for a field and a value: as an array of two texts, or as an object that holds
each under its key once, and any other members whose keys can be read. -/
inductive Condition (field value : String) : Node → Prop
  | pair {f v : Node} :
      f.text? = some field → v.text? = some value → Condition field value (.array [f, v])
  | members {members : List (List Char × Node)} {f v : Node} :
      (∀ m ∈ members, (decode m.1).isSome) →
      nodesUnder "field" members = [f] → f.text? = some field →
      nodesUnder "value" members = [v] → v.text? = some value →
      Condition field value (.object members)

/-- `Filled old nodes new`: the nodes of a key, one after the other, take a place from `old` to
`new`. None leaves it as it is, a single text fills it if it is empty, and anything else fails. -/
def Filled (old : Option String) (nodes : List Node) (new : Option String) : Prop :=
  (nodes = [] ∧ new = old) ∨
    ∃ n text, nodes = [n] ∧ n.text? = some text ∧ old = none ∧ new = some text

theorem filled_nil_iff {old new : Option String} : Filled old [] new ↔ new = old := by
  simp [Filled]

theorem filled_singleton_iff {old new : Option String} {n : Node} :
    Filled old [n] new ↔ fillOnce old n = some new := by
  cases old with
  | some text => simp [Filled, fillOnce]
  | none =>
    cases htext : n.text? with
    | none => simp [Filled, fillOnce, htext]
    | some text => simp [Filled, fillOnce, htext, eq_comm]

/-- Nodes in two parts: the second part goes on where the first has led. -/
theorem filled_append_iff {old new : Option String} {ns ms : List Node} :
    Filled old (ns ++ ms) new ↔ ∃ mid, Filled old ns mid ∧ Filled mid ms new := by
  constructor
  · rintro (⟨h, rfl⟩ | ⟨n, text, h, htext, rfl, rfl⟩)
    · obtain ⟨rfl, rfl⟩ := List.append_eq_nil_iff.1 h
      exact ⟨new, .inl ⟨rfl, rfl⟩, .inl ⟨rfl, rfl⟩⟩
    · rcases List.append_eq_singleton_iff.1 h with ⟨rfl, rfl⟩ | ⟨rfl, rfl⟩
      · exact ⟨none, .inl ⟨rfl, rfl⟩, .inr ⟨n, text, rfl, htext, rfl, rfl⟩⟩
      · exact ⟨some text, .inr ⟨n, text, rfl, htext, rfl, rfl⟩, .inl ⟨rfl, rfl⟩⟩
  · rintro ⟨mid, ⟨rfl, rfl⟩ | ⟨n, text, rfl, htext, rfl, rfl⟩, h⟩
    · exact h
    · rcases h with ⟨rfl, rfl⟩ | ⟨_, _, _, _, h, _⟩
      · exact .inr ⟨n, text, rfl, htext, rfl, rfl⟩
      · cases h

theorem nodesUnder_nil (key : String) : nodesUnder key [] = [] := rfl

theorem nodesUnder_cons (key : String) (m : List Char × Node) (members : List (List Char × Node)) :
    nodesUnder key (m :: members) =
      if decode m.1 = some key.toList then m.2 :: nodesUnder key members
      else nodesUnder key members := by
  unfold nodesUnder
  rw [List.filter_cons]
  by_cases h : decode m.1 = some key.toList <;> simp [h]

section Member

variable {old new : Option String × Option String} {key key' : List Char} {n : Node}

theorem takeMember_field_iff (h : decode key = some "field".toList) :
    takeMember old (key, n) = some new ↔ fillOnce old.1 n = some new.1 ∧ new.2 = old.2 := by
  have htake : takeMember old (key, n) = (fillOnce old.1 n).map fun a => (a, old.2) := by
    simp only [takeMember, h]
    cases fillOnce old.1 n <;> rfl
  rw [htake]
  cases fillOnce old.1 n <;> simp [Prod.ext_iff, eq_comm]

theorem takeMember_value_iff (h : decode key = some "value".toList) :
    takeMember old (key, n) = some new ↔ new.1 = old.1 ∧ fillOnce old.2 n = some new.2 := by
  have htake : takeMember old (key, n) = (fillOnce old.2 n).map fun b => (old.1, b) := by
    simp only [takeMember, h]
    cases fillOnce old.2 n <;> rfl
  rw [htake]
  cases fillOnce old.2 n <;> simp [Prod.ext_iff, eq_comm]

theorem takeMember_other (h : decode key = some key') (hfield : key' ≠ "field".toList)
    (hvalue : key' ≠ "value".toList) : takeMember old (key, n) = some old := by
  simp only [takeMember, h]
  show (if key' = "field".toList then _ else if key' = "value".toList then _ else _) = _
  rw [if_neg hfield, if_neg hvalue]
  rfl

theorem some_eq_some_iff : some old = some new ↔ new.1 = old.1 ∧ new.2 = old.2 := by
  rw [Option.some_inj, eq_comm, Prod.ext_iff]

/-- **One member more**: each place is filled from what the member has under its key. -/
theorem takeMember_eq_some_iff {m : List Char × Node} :
    takeMember old m = some new ↔
      (decode m.1).isSome = true ∧
        Filled old.1 (nodesUnder "field" [m]) new.1 ∧
        Filled old.2 (nodesUnder "value" [m]) new.2 := by
  obtain ⟨key, n⟩ := m
  rw [nodesUnder_cons, nodesUnder_cons, nodesUnder_nil, nodesUnder_nil]
  cases hkey : decode key with
  | none =>
    simp only [takeMember, hkey]
    simp
  | some key' =>
    by_cases hf : key' = "field".toList
    · subst hf
      rw [if_pos rfl, if_neg (by simp), filled_singleton_iff, filled_nil_iff,
        takeMember_field_iff hkey]
      simp
    · rw [if_neg (by simpa using hf)]
      by_cases hv : key' = "value".toList
      · subst hv
        rw [if_pos rfl, filled_singleton_iff, filled_nil_iff, takeMember_value_iff hkey]
        simp
      · rw [if_neg (by simpa using hv), filled_nil_iff, filled_nil_iff,
          takeMember_other hkey hf hv, some_eq_some_iff]
        simp

/-- **All members**: each place is filled from what stands under its key. -/
theorem foldlM_takeMember_iff {members : List (List Char × Node)} :
    members.foldlM takeMember old = some new ↔
      (∀ m ∈ members, (decode m.1).isSome) ∧
        Filled old.1 (nodesUnder "field" members) new.1 ∧
        Filled old.2 (nodesUnder "value" members) new.2 := by
  induction members generalizing old with
  | nil =>
    rw [List.foldlM_nil, nodesUnder_nil, nodesUnder_nil, filled_nil_iff, filled_nil_iff]
    show some old = some new ↔ _
    rw [some_eq_some_iff]
    simp
  | cons m members ih =>
    have happend (key : String) :
        nodesUnder key (m :: members) = nodesUnder key [m] ++ nodesUnder key members := by
      simp only [nodesUnder, ← List.map_append, ← List.filter_append, List.singleton_append]
    rw [List.foldlM_cons, List.forall_mem_cons, happend, happend, filled_append_iff,
      filled_append_iff]
    show (takeMember old m).bind _ = _ ↔ _
    simp only [Option.bind_eq_some_iff, takeMember_eq_some_iff, ih]
    constructor
    · rintro ⟨mid, ⟨hm, hf, hv⟩, hmembers, hf', hv'⟩
      exact ⟨⟨hm, hmembers⟩, ⟨mid.1, hf, hf'⟩, mid.2, hv, hv'⟩
    · rintro ⟨⟨hm, hmembers⟩, ⟨a, hf, hf'⟩, b, hv, hv'⟩
      exact ⟨(a, b), ⟨hm, hf, hv⟩, hmembers, hf', hv'⟩

end Member

/-- A node is read as a condition exactly when it stands for one, and a level is left for it. -/
theorem condition?_eq_some_iff {levels : Nat} {n : Node} {c : String × String} :
    condition? levels n = some c ↔ Condition c.1 c.2 n ∧ 1 ≤ levels := by
  obtain ⟨field, value⟩ := c
  constructor
  · intro h
    unfold condition? at h
    split at h
    · obtain ⟨f, hf, h⟩ := Option.bind_eq_some_iff.1 h
      obtain ⟨v, hv, h⟩ := Option.bind_eq_some_iff.1 h
      obtain ⟨rfl, rfl⟩ := Prod.mk.inj (Option.some.inj h)
      exact ⟨.pair hf hv, by omega⟩
    · obtain ⟨found, hfound, h⟩ := Option.bind_eq_some_iff.1 h
      split at h
      · obtain ⟨rfl, rfl⟩ := Prod.mk.inj (Option.some.inj h)
        obtain ⟨hall, ⟨-, h₁⟩ | ⟨f, _, hf, hft, -, h₁⟩, ⟨-, h₂⟩ | ⟨v, _, hv, hvt, -, h₂⟩⟩ :=
          foldlM_takeMember_iff.1 hfound
        · cases h₁
        · cases h₁
        · cases h₂
        · obtain rfl := Option.some.inj h₁
          obtain rfl := Option.some.inj h₂
          exact ⟨.members hall hf hft hv hvt, by omega⟩
      · cases h
    · cases h
  · rintro ⟨h, hlevels⟩
    obtain ⟨levels, rfl⟩ := Nat.exists_eq_add_of_le' hlevels
    cases h with
    | pair hf hv => simp [condition?, hf, hv]
    | @members members f v hall hf hft hv hvt =>
      have hfound : members.foldlM takeMember (none, none) = some (some field, some value) :=
        foldlM_takeMember_iff.2 ⟨hall, .inr ⟨f, field, hf, hft, rfl, rfl⟩,
          .inr ⟨v, value, hv, hvt, rfl, rfl⟩⟩
      simp [condition?, hfound]

/-! ## Expressions -/

/-- `Spelled e n`: the tree stands for the expression. -/
inductive Spelled : Expression → Node → Prop
  | and {key : List Char} {es : List Expression} {items : List Node} :
      decode key = some "and".toList → List.Forall₂ Spelled es items →
      Spelled (.and es) (.object [(key, .array items)])
  | or {key : List Char} {es : List Expression} {items : List Node} :
      decode key = some "or".toList → List.Forall₂ Spelled es items →
      Spelled (.or es) (.object [(key, .array items)])
  | not {key : List Char} {e : Expression} {n : Node} :
      decode key = some "not".toList → Spelled e n → Spelled (.not e) (.object [(key, n)])
  | equals {key : List Char} {field value : String} {n : Node} :
      decode key = some "equals".toList → Condition field value n →
      Spelled (.equals field value) (.object [(key, n)])
  | contains {key : List Char} {field value : String} {n : Node} :
      decode key = some "contains".toList → Condition field value n →
      Spelled (.contains field value) (.object [(key, n)])

section Tags

variable {levels : Nat} {key : List Char} {n : Node} {items : List Node}

theorem ofNode?_and (h : decode key = some "and".toList) :
    ofNode? (levels + 2) (.object [(key, .array items)]) = (ofNodes? levels items).map .and := by
  unfold ofNode?
  rw [h]
  rfl

theorem ofNode?_or (h : decode key = some "or".toList) :
    ofNode? (levels + 2) (.object [(key, .array items)]) = (ofNodes? levels items).map .or := by
  unfold ofNode?
  rw [h]
  rfl

theorem ofNode?_not (h : decode key = some "not".toList) :
    ofNode? (levels + 1) (.object [(key, n)]) = (ofNode? levels n).map .not := by
  rw [ofNode?.eq_def]
  simp only
  rw [h]
  rfl

theorem ofNode?_equals (h : decode key = some "equals".toList) :
    ofNode? (levels + 1) (.object [(key, n)]) =
      (condition? levels n).map fun c => .equals c.1 c.2 := by
  unfold ofNode?
  rw [h]
  rfl

theorem ofNode?_contains (h : decode key = some "contains".toList) :
    ofNode? (levels + 1) (.object [(key, n)]) =
      (condition? levels n).map fun c => .contains c.1 c.2 := by
  unfold ofNode?
  rw [h]
  rfl

end Tags

/-- Several trees are read as several expressions exactly when each stands for its own, if that is
so of each alone. -/
theorem ofNodes?_eq_some_iff {levels : Nat} {items : List Node} {es : List Expression}
    (ih : ∀ n ∈ items, ∀ {e}, ofNode? levels n = some e ↔ Spelled e n ∧ e.nesting ≤ levels) :
    ofNodes? levels items = some es ↔
      List.Forall₂ Spelled es items ∧ nestingOfAll es ≤ levels := by
  induction items generalizing es with
  | nil =>
    rw [ofNodes?, List.forall₂_nil_right_iff]
    constructor
    · intro h
      obtain rfl := Option.some.inj h
      exact ⟨rfl, Nat.zero_le _⟩
    · rintro ⟨rfl, -⟩
      rfl
  | cons n items ihs =>
    have hn {e : Expression} := ih n List.mem_cons_self (e := e)
    have hitems {es : List Expression} : ofNodes? levels items = some es ↔
        List.Forall₂ Spelled es items ∧ nestingOfAll es ≤ levels :=
      ihs fun n hn => ih n (List.mem_cons_of_mem _ hn)
    rw [ofNodes?, List.forall₂_cons_right_iff]
    constructor
    · intro h
      split at h
      · cases h
      · next e he =>
        obtain ⟨es, hes, rfl⟩ := Option.map_eq_some_iff.1 h
        obtain ⟨h₁, h₂⟩ := hn.1 he
        obtain ⟨h₃, h₄⟩ := hitems.1 hes
        exact ⟨⟨e, es, h₁, h₃, rfl⟩, by rw [nestingOfAll]; omega⟩
    · rintro ⟨⟨e, es, h₁, h₃, rfl⟩, h⟩
      rw [nestingOfAll] at h
      rw [hn.2 ⟨h₁, by omega⟩]
      show (ofNodes? levels items).map _ = _
      rw [hitems.2 ⟨h₃, by omega⟩]
      rfl

/-- What the reader does with a tree: it goes by the tag, and has two levels less for the parts of
a group and one less for what else stands under the tag. -/
inductive ReadAs : Nat → Node → Expression → Prop
  | and {levels : Nat} {key : List Char} {items : List Node} {es : List Expression} :
      decode key = some "and".toList → ofNodes? levels items = some es →
      ReadAs (levels + 2) (.object [(key, .array items)]) (.and es)
  | or {levels : Nat} {key : List Char} {items : List Node} {es : List Expression} :
      decode key = some "or".toList → ofNodes? levels items = some es →
      ReadAs (levels + 2) (.object [(key, .array items)]) (.or es)
  | not {levels : Nat} {key : List Char} {n : Node} {e : Expression} :
      decode key = some "not".toList → ofNode? levels n = some e →
      ReadAs (levels + 1) (.object [(key, n)]) (.not e)
  | equals {levels : Nat} {key : List Char} {n : Node} {field value : String} :
      decode key = some "equals".toList → condition? levels n = some (field, value) →
      ReadAs (levels + 1) (.object [(key, n)]) (.equals field value)
  | contains {levels : Nat} {key : List Char} {n : Node} {field value : String} :
      decode key = some "contains".toList → condition? levels n = some (field, value) →
      ReadAs (levels + 1) (.object [(key, n)]) (.contains field value)

theorem readAs_of_ofNode? {levels : Nat} {n : Node} {e : Expression}
    (h : ofNode? levels n = some e) : ReadAs levels n e := by
  unfold ofNode? at h
  split at h
  case h_2 => cases h
  case h_1 levels key n =>
    cases hkey : decode key with
    | none =>
      rw [hkey] at h
      cases h
    | some key' =>
      rw [hkey] at h
      simp only at h
      split_ifs at h with hand hor hnot hequals hcontains
      · subst hand
        split at h
        · obtain ⟨es, hes, rfl⟩ := Option.map_eq_some_iff.1 h
          exact .and hkey hes
        · cases h
      · subst hor
        split at h
        · obtain ⟨es, hes, rfl⟩ := Option.map_eq_some_iff.1 h
          exact .or hkey hes
        · cases h
      · subst hnot
        obtain ⟨e, he, rfl⟩ := Option.map_eq_some_iff.1 h
        exact .not hkey he
      · subst hequals
        obtain ⟨c, hc, rfl⟩ := Option.map_eq_some_iff.1 h
        exact .equals hkey hc
      · subst hcontains
        obtain ⟨c, hc, rfl⟩ := Option.map_eq_some_iff.1 h
        exact .contains hkey hc

theorem ReadAs.ofNode? {levels : Nat} {n : Node} {e : Expression} (h : ReadAs levels n e) :
    ofNode? levels n = some e := by
  cases h with
  | and hkey h =>
    rw [ofNode?_and hkey, h]
    rfl
  | or hkey h =>
    rw [ofNode?_or hkey, h]
    rfl
  | not hkey h =>
    rw [ofNode?_not hkey, h]
    rfl
  | equals hkey h =>
    rw [ofNode?_equals hkey, h]
    rfl
  | contains hkey h =>
    rw [ofNode?_contains hkey, h]
    rfl

/-- **A tree is read as an expression exactly when it stands for that expression**, and the levels
left are enough for its nesting. -/
theorem ofNode?_eq_some_iff {levels : Nat} {n : Node} {e : Expression} :
    ofNode? levels n = some e ↔ Spelled e n ∧ e.nesting ≤ levels := by
  constructor
  · intro h
    cases readAs_of_ofNode? h with
    | and hkey hes =>
      obtain ⟨hspelled, hle⟩ := (ofNodes?_eq_some_iff fun n _ => ofNode?_eq_some_iff).1 hes
      exact ⟨.and hkey hspelled, by rw [nesting]; omega⟩
    | or hkey hes =>
      obtain ⟨hspelled, hle⟩ := (ofNodes?_eq_some_iff fun n _ => ofNode?_eq_some_iff).1 hes
      exact ⟨.or hkey hspelled, by rw [nesting]; omega⟩
    | not hkey he =>
      obtain ⟨hspelled, hle⟩ := ofNode?_eq_some_iff.1 he
      exact ⟨.not hkey hspelled, by rw [nesting]; omega⟩
    | equals hkey hc =>
      obtain ⟨hcondition, hle⟩ := condition?_eq_some_iff.1 hc
      exact ⟨.equals hkey hcondition, by rw [nesting]; omega⟩
    | contains hkey hc =>
      obtain ⟨hcondition, hle⟩ := condition?_eq_some_iff.1 hc
      exact ⟨.contains hkey hcondition, by rw [nesting]; omega⟩
  · rintro ⟨h, hle⟩
    refine ReadAs.ofNode? ?_
    cases h with
    | and hkey hitems =>
      rw [nesting] at hle
      obtain ⟨levels, rfl⟩ := Nat.exists_eq_add_of_le' (show 2 ≤ levels by omega)
      exact .and hkey ((ofNodes?_eq_some_iff fun n _ => ofNode?_eq_some_iff).2 ⟨hitems, by omega⟩)
    | or hkey hitems =>
      rw [nesting] at hle
      obtain ⟨levels, rfl⟩ := Nat.exists_eq_add_of_le' (show 2 ≤ levels by omega)
      exact .or hkey ((ofNodes?_eq_some_iff fun n _ => ofNode?_eq_some_iff).2 ⟨hitems, by omega⟩)
    | not hkey h =>
      rw [nesting] at hle
      obtain ⟨levels, rfl⟩ := Nat.exists_eq_add_of_le' (show 1 ≤ levels by omega)
      exact .not hkey (ofNode?_eq_some_iff.2 ⟨h, by omega⟩)
    | equals hkey h =>
      rw [nesting] at hle
      obtain ⟨levels, rfl⟩ := Nat.exists_eq_add_of_le' (show 1 ≤ levels by omega)
      exact .equals hkey (condition?_eq_some_iff.2 ⟨h, by omega⟩)
    | contains hkey h =>
      rw [nesting] at hle
      obtain ⟨levels, rfl⟩ := Nat.exists_eq_add_of_le' (show 1 ≤ levels by omega)
      exact .contains hkey (condition?_eq_some_iff.2 ⟨h, by omega⟩)
termination_by n

end DirectoryLookup.Expression
