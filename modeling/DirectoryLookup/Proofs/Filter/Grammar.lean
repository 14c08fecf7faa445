import DirectoryLookup.Filter.Basic
import DirectoryLookup.Number.Digits
import Mathlib.Data.List.Forall2

/-!
# The grammar of filters

A filter is written `(&F+)`, `(|F+)`, `(!F)`, `(attr=*)`, `(attr=v)` or `(attr=*v*)`, where `F+`
is one filter or several and `v` spells a value.

**Values** (`Spells`). A character of a value stands for itself, or it is escaped as a backslash
and the two hexadecimal digits of its code, in either case. Parentheses, stars, backslashes and NUL
never stand for themselves.

**Filters** (`Written`). The relation says which texts write a filter. It knows nothing of how
filters are printed: any character may be escaped, or none that need not be.

**Theorem (`Written.unique`).** A text writes one filter at most.

The proof goes down the first of two filters, and allows for more text behind both. The character
after the parenthesis tells the four forms apart, because a name never starts with an operator. In a
clause, a name ends at the first `=` and what follows it at the first `)`, because neither character
can stand before its place.
-/

namespace DirectoryLookup.Filter

open Number (hexValue?)

/-! ## Values -/

/-- The characters that never stand for themselves in a value. -/
def isReserved (c : Char) : Bool :=
  c ∈ ['*', '(', ')', '\\', '\x00']

/-- `Spells raw value`: between the `=` and the `)` of a clause, `raw` stands for `value`. -/
inductive Spells : List Char → List Char → Prop
  | nil : Spells [] []
  | plain {c : Char} {raw value : List Char} :
      isReserved c = false → Spells raw value → Spells (c :: raw) (c :: value)
  | escape {a b c : Char} {m n : Nat} {raw value : List Char} :
      hexValue? a = some m → hexValue? b = some n → c.toNat = 16 * m + n → c.toNat < 0x80 →
      Spells raw value → Spells ('\\' :: a :: b :: raw) (c :: value)

theorem hexValue?_of_isReserved {c : Char} (h : isReserved c = true) : hexValue? c = none := by
  simp only [isReserved, decide_eq_true_eq, List.mem_cons, List.not_mem_nil, or_false] at h
  rcases h with rfl | rfl | rfl | rfl | rfl <;> decide

/-- A backslash aside, no reserved character stands in the spelling of a value. -/
theorem Spells.not_mem {raw value : List Char} (h : Spells raw value) {c : Char}
    (hc : isReserved c = true) (hb : c ≠ '\\') : c ∉ raw := by
  have hdigit {d : Char} {n : Nat} (hd : hexValue? d = some n) : c ≠ d := by
    rintro rfl
    rw [hexValue?_of_isReserved hc] at hd
    cases hd
  induction h with
  | nil => exact List.not_mem_nil
  | plain hd _ ih =>
    rw [List.mem_cons, not_or]
    refine ⟨?_, ih⟩
    rintro rfl
    rw [hc] at hd
    cases hd
  | escape hm hn _ _ _ ih =>
    simp only [List.mem_cons, not_or]
    exact ⟨hb, hdigit hm, hdigit hn, ih⟩

/-- A text spells one value at most. -/
theorem Spells.unique {raw v w : List Char} (hv : Spells raw v) (hw : Spells raw w) : v = w := by
  induction hv generalizing w with
  | nil =>
    cases hw
    rfl
  | plain hc _ ih =>
    cases hw with
    | plain _ h => rw [ih h]
    | escape => exact absurd hc (by decide)
  | escape ha hb hc _ _ ih =>
    cases hw with
    | plain hd _ => exact absurd hd (by decide)
    | escape ha' hb' hc' _ h =>
      obtain rfl := Option.some.inj (ha.symm.trans ha')
      obtain rfl := Option.some.inj (hb.symm.trans hb')
      rw [ih h, Char.toNat_inj.1 (hc.trans hc'.symm)]

/-- An escaped value spells the value. -/
theorem spells_escape (value : List Char) : Spells (escape value) value := by
  induction value with
  | nil => exact .nil
  | cons c s ih =>
    rw [escape_cons]
    unfold escapeChar
    split
    case h_6 _ h₁ h₂ h₃ h₄ h₅ => exact .plain (by simp_all [isReserved]) ih
    all_goals exact .escape rfl rfl rfl (by decide) ih

/-! ## Clauses -/

/-- The characters that cannot stand in the name of an attribute. -/
def isSpecial (c : Char) : Bool :=
  c ∈ ['(', ')', '=', '*', '\\', '&', '|', '!']

/-- A name that can be read back from a filter: at least one character, and none with a meaning in
the grammar. -/
def IsName (attr : String) : Prop :=
  attr ≠ "" ∧ ∀ c ∈ attr.toList, isSpecial c = false

instance (attr : String) : Decidable (IsName attr) :=
  have : Decidable (∀ c ∈ attr.toList, isSpecial c = false) := List.decidableBAll _ _
  instDecidableAnd

/-- `Condition attr f body`: after `attr=`, the text `body` writes the condition `f` on the
attribute. -/
inductive Condition (attr : String) : Filter → List Char → Prop
  | present : Condition attr (.present attr) ['*']
  | equal {value : String} {raw : List Char} :
      Spells raw value.toList → Condition attr (.equal attr value) raw
  | contains {value : String} {raw : List Char} :
      Spells raw value.toList → Condition attr (.contains attr value) ('*' :: raw ++ ['*'])

theorem IsName.not_mem {attr : String} (h : IsName attr) {c : Char} (hc : isSpecial c = true) :
    c ∉ attr.toList := by
  intro hmem
  rw [h.2 c hmem] at hc
  cases hc

/-- A text that starts with a name does not start with an operator. -/
theorem IsName.ne_cons {attr : String} (h : IsName attr) {c : Char} (hc : isSpecial c = true)
    (s t : List Char) : attr.toList ++ s ≠ c :: t := by
  cases ha : attr.toList with
  | nil => exact absurd (String.toList_eq_nil_iff.1 ha) h.1
  | cons d ds =>
    intro heq
    obtain ⟨rfl, -⟩ := List.cons.inj heq
    exact h.not_mem hc (ha ▸ List.mem_cons_self)

/-- A text is cut in one way only at the first place of a character. -/
theorem eq_of_append_cons_eq {c : Char} {a b s t : List Char} (ha : c ∉ a) (hb : c ∉ b)
    (h : a ++ c :: s = b ++ c :: t) : a = b ∧ s = t := by
  induction a generalizing b with
  | nil =>
    cases b with
    | nil => exact ⟨rfl, (List.cons.inj h).2⟩
    | cons d b =>
      obtain ⟨rfl, -⟩ := List.cons.inj h
      exact absurd List.mem_cons_self hb
  | cons d a ih =>
    cases b with
    | nil =>
      obtain ⟨rfl, -⟩ := List.cons.inj h
      exact absurd List.mem_cons_self ha
    | cons e b =>
      obtain ⟨rfl, h'⟩ := List.cons.inj h
      obtain ⟨rfl, rfl⟩ := ih (List.not_mem_of_not_mem_cons ha) (List.not_mem_of_not_mem_cons hb) h'
      exact ⟨rfl, rfl⟩

theorem Condition.not_mem {attr : String} {f : Filter} {body : List Char}
    (h : Condition attr f body) : ')' ∉ body := by
  cases h with
  | present => decide
  | equal h => exact h.not_mem (by decide) (by decide)
  | contains h => simpa using h.not_mem (c := ')') (by decide) (by decide)

/-- What follows the `=` of a clause writes one condition at most: without a star it is a value,
and the star alone is shorter than two stars around a value. -/
theorem Condition.unique {attr : String} {f g : Filter} {body : List Char}
    (hf : Condition attr f body) (hg : Condition attr g body) : f = g := by
  have star {raw value : List Char} (h : Spells raw value) : '*' ∉ raw :=
    h.not_mem (by decide) (by decide)
  generalize hb : body = body' at hg
  cases hf with
  | present =>
    cases hg with
    | present => rfl
    | equal h => exact absurd (hb ▸ List.mem_cons_self) (star h)
    | contains h => simp at hb
  | equal h =>
    cases hg with
    | present => exact absurd (hb ▸ List.mem_cons_self) (star h)
    | equal h' =>
      subst hb
      rw [String.toList_inj.1 (h.unique h')]
    | contains _ => exact absurd (hb ▸ List.mem_cons_self) (star h)
  | contains h =>
    cases hg with
    | present => simp at hb
    | equal h' => exact absurd (hb ▸ List.mem_cons_self) (star h')
    | contains h' =>
      obtain rfl := List.append_cancel_right (List.cons.inj hb).2
      rw [String.toList_inj.1 (h.unique h')]

/-! ## Filters -/

/-- `Written f text`: the text, from its first character to its last, writes the filter. -/
inductive Written : Filter → List Char → Prop
  | all {parts : List Filter} {texts : List (List Char)} :
      parts ≠ [] → List.Forall₂ Written parts texts →
      Written (.all parts) ('(' :: '&' :: texts.flatten ++ [')'])
  | any {parts : List Filter} {texts : List (List Char)} :
      parts ≠ [] → List.Forall₂ Written parts texts →
      Written (.any parts) ('(' :: '|' :: texts.flatten ++ [')'])
  | not {part : Filter} {text : List Char} :
      Written part text → Written (.not part) ('(' :: '!' :: text ++ [')'])
  | clause {attr : String} {f : Filter} {body : List Char} :
      IsName attr → Condition attr f body → Written f ('(' :: attr.toList ++ '=' :: body ++ [')'])

/-- A filter starts with a parenthesis. -/
theorem Written.eq_cons {f : Filter} {text : List Char} (h : Written f text) :
    ∃ rest, text = '(' :: rest := by
  cases h <;> exact ⟨_, rfl⟩

/-- Two runs of filters, each with a parenthesis after it, are the same as soon as the parts of
the first are read in one way only. -/
theorem unique_parts {fs gs : List Filter} {texts texts' : List (List Char)} {t t' : List Char}
    (ih : ∀ f ∈ fs, ∀ {g s s' u u'}, Written f s → Written g s' → s ++ u = s' ++ u' →
      f = g ∧ s = s')
    (hf : List.Forall₂ Written fs texts) (hg : List.Forall₂ Written gs texts')
    (h : texts.flatten ++ ')' :: t = texts'.flatten ++ ')' :: t') :
    fs = gs ∧ texts = texts' := by
  induction hf generalizing gs texts' with
  | nil =>
    cases hg with
    | nil => exact ⟨rfl, rfl⟩
    | cons hg _ =>
      obtain ⟨_, rfl⟩ := hg.eq_cons
      simp at h
  | cons hf _ ihs =>
    cases hg with
    | nil =>
      obtain ⟨_, rfl⟩ := hf.eq_cons
      simp at h
    | cons hg hgs =>
      rw [List.flatten_cons, List.flatten_cons, List.append_assoc, List.append_assoc] at h
      obtain ⟨rfl, rfl⟩ := ih _ List.mem_cons_self hf hg h
      obtain ⟨rfl, rfl⟩ := ihs (fun f hmem => ih f (List.mem_cons_of_mem _ hmem)) hgs
        (List.append_cancel_left h)
      exact ⟨rfl, rfl⟩

/-- No text that writes a filter goes on to write another. -/
theorem Written.eq_of_append_eq (f : Filter) {g : Filter} {s s' t t' : List Char} (hf : Written f s)
    (hg : Written g s') (h : s ++ t = s' ++ t') : f = g ∧ s = s' := by
  cases hf with
  | @all fs texts _ hfs =>
    cases hg with
    | all _ hgs =>
      obtain ⟨rfl, rfl⟩ := unique_parts (fun f _ _ _ _ _ _ => Written.eq_of_append_eq f) hfs hgs
        (by simpa using h)
      exact ⟨rfl, rfl⟩
    | clause ha _ => exact absurd (by simpa using h.symm) (ha.ne_cons (c := '&') rfl _ _)
    | _ => simp at h
  | @any fs texts _ hfs =>
    cases hg with
    | any _ hgs =>
      obtain ⟨rfl, rfl⟩ := unique_parts (fun f _ _ _ _ _ _ => Written.eq_of_append_eq f) hfs hgs
        (by simpa using h)
      exact ⟨rfl, rfl⟩
    | clause ha _ => exact absurd (by simpa using h.symm) (ha.ne_cons (c := '|') rfl _ _)
    | _ => simp at h
  | @not f s hf =>
    cases hg with
    | @not g s' hg =>
      have heq : s ++ ')' :: t = s' ++ ')' :: t' := by simpa using h
      obtain ⟨rfl, rfl⟩ := Written.eq_of_append_eq f hf hg heq
      exact ⟨rfl, rfl⟩
    | clause ha _ => exact absurd (by simpa using h.symm) (ha.ne_cons (c := '!') rfl _ _)
    | _ => simp at h
  | @clause a _ body ha hc =>
    cases hg with
    | all => exact absurd (by simpa using h) (ha.ne_cons (c := '&') rfl _ _)
    | any => exact absurd (by simpa using h) (ha.ne_cons (c := '|') rfl _ _)
    | not => exact absurd (by simpa using h) (ha.ne_cons (c := '!') rfl _ _)
    | @clause a' _ body' ha' hc' =>
      have heq : a.toList ++ '=' :: (body ++ ')' :: t) =
          a'.toList ++ '=' :: (body' ++ ')' :: t') := by
        simpa using h
      obtain ⟨hname, hrest⟩ :=
        eq_of_append_cons_eq (ha.not_mem (c := '=') rfl) (ha'.not_mem (c := '=') rfl) heq
      obtain ⟨rfl, -⟩ := eq_of_append_cons_eq hc.not_mem hc'.not_mem hrest
      obtain rfl := String.toList_inj.1 hname
      exact ⟨hc.unique hc', rfl⟩
termination_by f

/-- **A text writes one filter at most.** -/
theorem Written.unique {f g : Filter} {text : List Char} (hf : Written f text)
    (hg : Written g text) : f = g :=
  (hf.eq_of_append_eq f hg (congrArg (· ++ []) rfl)).1

end DirectoryLookup.Filter
