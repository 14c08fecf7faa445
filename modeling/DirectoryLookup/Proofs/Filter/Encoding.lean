import DirectoryLookup.Proofs.Filter.Grammar

/-!
# Escaping as an encoding

A value stands escaped in a filter. This module says which texts are escaped values, and that each
is the escaped form of one value.

**Escaped texts** (`IsEscaped`). Stars, parentheses and NUL do not stand in them, and every
backslash starts one of five escapes. The digits of an escape are no backslashes, so two escapes
never share a character.

**Theorem (`apply_escaped_encoding`).** Escaping is undone by unescaping. What it makes of values is
the escaped texts and nothing else, and these are the texts that unescaping and escaping give back.
Values are escaped piece by piece. To escape a value twice is the same as once only if it has no
reserved character, that is, if it is not changed at all.

An escaped text is taken apart from its start: a step takes one escape or one character that is not
reserved (`IsEscaped.exists_escapeChar`), and what is left is an escaped text, because the condition
is about places in a text and so passes to what stands behind any of them.
-/

namespace DirectoryLookup.Filter

/-- The escapes of the five reserved characters. -/
def escapes : List (List Char) :=
  [['\\', '2', 'a'], ['\\', '2', '8'], ['\\', '2', '9'], ['\\', '5', 'c'], ['\\', '0', '0']]

/-- The text is an escaped value, by what stands in it. -/
structure IsEscaped (s : List Char) : Prop where
  not_mem : ∀ c ∈ ['*', '(', ')', '\x00'], c ∉ s
  /-- A backslash starts an escape. -/
  exists_prefix : ∀ t, '\\' :: t <:+ s → ∃ e ∈ escapes, e <+: '\\' :: t

/-! ## Characters -/

theorem isReserved_and_ne_iff {c : Char} :
    isReserved c = true ∧ c ≠ '\\' ↔ c ∈ ['*', '(', ')', '\x00'] := by
  simp only [isReserved, decide_eq_true_eq, List.mem_cons, List.not_mem_nil, or_false]
  constructor
  · rintro ⟨rfl | rfl | rfl | rfl | rfl, hne⟩
    case inr.inr.inr.inl => exact absurd rfl hne
    all_goals simp
  · rintro (rfl | rfl | rfl | rfl) <;> simp

/-- A character is replaced by an escape or stands for itself. -/
theorem escapeChar_cases (c : Char) :
    isReserved c = true ∧ escapeChar c ∈ escapes ∨
      isReserved c = false ∧ escapeChar c = [c] := by
  unfold escapeChar
  split
  case h_6 _ h₁ h₂ h₃ h₄ h₅ => exact .inr ⟨by simp_all [isReserved], rfl⟩
  all_goals exact .inl ⟨by decide, by decide⟩

theorem escapeChar_of_not_isReserved {c : Char} (h : isReserved c = false) :
    escapeChar c = [c] := by
  rcases escapeChar_cases c with ⟨hc, -⟩ | ⟨-, hself⟩
  · rw [h] at hc
    cases hc
  · exact hself

theorem escapeChar_ne_nil (c : Char) : escapeChar c ≠ [] := by
  unfold escapeChar
  split <;> exact List.cons_ne_nil _ _

theorem exists_escapeChar_of_mem_escapes {e : List Char} (h : e ∈ escapes) :
    ∃ c, e = escapeChar c := by
  simp only [escapes, List.mem_cons, List.not_mem_nil, or_false] at h
  rcases h with rfl | rfl | rfl | rfl | rfl
  · exact ⟨'*', rfl⟩
  · exact ⟨'(', rfl⟩
  · exact ⟨')', rfl⟩
  · exact ⟨'\\', rfl⟩
  · exact ⟨'\x00', rfl⟩

theorem length_of_mem_escapes : ∀ e ∈ escapes, e.length = 3 := by
  decide

/-! ## Values -/

theorem length_escape (s : List Char) :
    (escape s).length = s.length + 2 * s.countP isReserved := by
  induction s with
  | nil => rfl
  | cons c s ih =>
    rw [escape_cons, List.length_append, ih, List.length_cons, List.countP_cons]
    rcases escapeChar_cases c with ⟨hc, hmem⟩ | ⟨hc, hself⟩
    · rw [length_of_mem_escapes _ hmem, if_pos hc]
      omega
    · rw [hself, if_neg (by simp [hc]), List.length_singleton]
      omega

/-- **A text is its own escaped form exactly when it has no reserved character.** -/
theorem escape_eq_self_iff {s : List Char} :
    escape s = s ↔ ∀ c ∈ s, isReserved c = false := by
  constructor
  · intro h c hc
    have hlength := length_escape s
    have hcount : s.countP isReserved = 0 := by
      rw [h] at hlength
      omega
    exact Bool.eq_false_iff.2 (List.countP_eq_zero.1 hcount c hc)
  · intro h
    induction s with
    | nil => rfl
    | cons c s ih =>
      rw [escape_cons, escapeChar_of_not_isReserved (h c List.mem_cons_self),
        ih fun d hd => h d (List.mem_cons_of_mem _ hd), List.singleton_append]

/-- Escaping a second time changes nothing only where the first time changed nothing. -/
theorem escape_escape_eq_iff {s : List Char} :
    escape (escape s) = escape s ↔ ∀ c ∈ s, isReserved c = false := by
  rw [← escape_eq_self_iff]
  constructor
  · intro h
    have hsame := congrArg unescape h
    rwa [unescape_escape, unescape_escape] at hsame
  · intro h
    rw [h, h]

/-! ## Escaped texts -/

/-- In an escape and what stands behind it, a backslash is the first character or stands behind. -/
theorem eq_or_suffix_of_mem_escapes {e s t : List Char} (he : e ∈ escapes)
    (h : '\\' :: t <:+ e ++ s) : '\\' :: t = e ++ s ∨ '\\' :: t <:+ s := by
  simp only [escapes, List.mem_cons, List.not_mem_nil, or_false] at he
  rcases he with rfl | rfl | rfl | rfl | rfl <;> simpa [List.suffix_cons_iff] using h

theorem exists_prefix_escape {value t : List Char} (h : '\\' :: t <:+ escape value) :
    ∃ e ∈ escapes, e <+: '\\' :: t := by
  induction value with
  | nil => exact absurd (List.suffix_nil.1 h) (List.cons_ne_nil _ _)
  | cons c s ih =>
    rw [escape_cons] at h
    rcases escapeChar_cases c with ⟨-, hmem⟩ | ⟨hc, hself⟩
    · rcases eq_or_suffix_of_mem_escapes hmem h with heq | hs
      · exact ⟨escapeChar c, hmem, heq ▸ List.prefix_append _ _⟩
      · exact ih hs
    · rw [hself, List.singleton_append, List.suffix_cons_iff] at h
      rcases h with heq | hs
      · obtain ⟨rfl, -⟩ := List.cons.inj heq
        exact absurd hc (by decide)
      · exact ih hs

theorem isEscaped_escape (value : List Char) : IsEscaped (escape value) where
  not_mem c hc := by
    obtain ⟨h, hne⟩ := isReserved_and_ne_iff.2 hc
    exact (spells_escape value).not_mem h hne
  exists_prefix _ := exists_prefix_escape

variable {s : List Char}

theorem IsEscaped.of_suffix {t : List Char} (h : IsEscaped s) (ht : t <:+ s) : IsEscaped t where
  not_mem c hc hmem := h.not_mem c hc (ht.mem hmem)
  exists_prefix u hu := h.exists_prefix u (hu.trans ht)

theorem IsEscaped.eq_backslash {c : Char} (h : IsEscaped (c :: s)) (hc : isReserved c = true) :
    c = '\\' := by
  by_contra hne
  exact h.not_mem c (isReserved_and_ne_iff.1 ⟨hc, hne⟩) List.mem_cons_self

/-- An escaped text starts with what escaping has in place of some character. -/
theorem IsEscaped.exists_escapeChar {c : Char} (h : IsEscaped (c :: s)) :
    ∃ d rest, escapeChar d ++ rest = c :: s := by
  cases hc : isReserved c with
  | false => exact ⟨c, s, by rw [escapeChar_of_not_isReserved hc, List.singleton_append]⟩
  | true =>
    obtain rfl := h.eq_backslash hc
    obtain ⟨e, he, rest, hrest⟩ := h.exists_prefix s List.suffix_rfl
    obtain ⟨d, rfl⟩ := exists_escapeChar_of_mem_escapes he
    exact ⟨d, rest, hrest⟩

/-- An escaped text is the escaped form of a value. An escape takes three characters at once, so the
induction is on the length. -/
theorem IsEscaped.exists_value {s : List Char} (h : IsEscaped s) :
    ∃ value, s = escape value := by
  cases s with
  | nil => exact ⟨[], rfl⟩
  | cons c s =>
    obtain ⟨d, rest, hrest⟩ := h.exists_escapeChar
    have hlt : rest.length < (c :: s).length := by
      have hpos := List.length_pos_of_ne_nil (escapeChar_ne_nil d)
      rw [← hrest, List.length_append]
      omega
    obtain ⟨value, rfl⟩ := IsEscaped.exists_value (h.of_suffix ⟨_, hrest⟩)
    exact ⟨d :: value, by rw [escape_cons, hrest]⟩
termination_by s.length

theorem exists_eq_escape_iff : (∃ value, s = escape value) ↔ IsEscaped s := by
  refine ⟨?_, IsEscaped.exists_value⟩
  rintro ⟨value, rfl⟩
  exact isEscaped_escape value

theorem escape_unescape_eq_iff : escape (unescape s) = s ↔ IsEscaped s := by
  rw [← exists_eq_escape_iff]
  constructor
  · exact fun h => ⟨unescape s, h.symm⟩
  · rintro ⟨value, rfl⟩
    rw [unescape_escape]

instance (s : List Char) : Decidable (IsEscaped s) :=
  decidable_of_iff _ escape_unescape_eq_iff

/-! ## Values as strings -/

/-- The value that stands escaped as this text. -/
def unescaped (text : String) : String :=
  String.ofList (unescape text.toList)

theorem unescaped_apply (value : String) : unescaped (Escaping.escaped.apply value) = value := by
  rw [unescaped, toList_apply_escaped, unescape_escape, String.ofList_toList]

theorem apply_unescaped_eq_iff {text : String} :
    Escaping.escaped.apply (unescaped text) = text ↔ IsEscaped text.toList := by
  rw [← escape_unescape_eq_iff, ← String.toList_inj, toList_apply_escaped, unescaped,
    String.toList_ofList]

/-- **Escaping is an encoding.** Every value comes back from its escaped form. The escaped forms are
the escaped texts and no others, and each of these is what unescaping and escaping make of it.
Values are escaped piece by piece, and escaping twice differs from escaping once as soon as a value
has a reserved character. -/
theorem apply_escaped_encoding :
    (∀ value, unescaped (Escaping.escaped.apply value) = value) ∧
    (∀ text, (∃ value, text = Escaping.escaped.apply value) ↔ IsEscaped text.toList) ∧
    (∀ text, Escaping.escaped.apply (unescaped text) = text ↔ IsEscaped text.toList) ∧
    (∀ a b, Escaping.escaped.apply (a ++ b) =
      Escaping.escaped.apply a ++ Escaping.escaped.apply b) ∧
    ∀ value, Escaping.escaped.apply (Escaping.escaped.apply value) =
      Escaping.escaped.apply value ↔ ∀ c ∈ value.toList, isReserved c = false := by
  refine ⟨unescaped_apply, fun text => ?_, fun _ => apply_unescaped_eq_iff, fun a b => ?_,
    fun value => ?_⟩
  · rw [← apply_unescaped_eq_iff]
    constructor
    · rintro ⟨value, rfl⟩
      rw [unescaped_apply]
    · exact fun h => ⟨unescaped text, h.symm⟩
  · rw [← String.toList_inj, String.toList_append]
    simp only [toList_apply_escaped, String.toList_append, escape_append]
  · rw [← String.toList_inj, ← escape_escape_eq_iff]
    simp only [toList_apply_escaped]

/-- The digits of an escape are lower case, and there are two of them. -/
example : IsEscaped "5\\2a\\5c2a".toList ∧ ¬IsEscaped "\\2A".toList ∧ ¬IsEscaped "\\5".toList ∧
    ¬IsEscaped "\\\\5c".toList ∧ ¬IsEscaped "\\28)".toList := by
  decide

end DirectoryLookup.Filter
