import DirectoryLookup.Json.Reader
import Mathlib.Tactic.Common

/-!
# The grammar of JSON

Which texts write a tree, and that the reader reads each of them as that tree.

**Leaves** (`Raw`, `Numeral`). What may stand between quotes, and how numbers are written.

**Trees** (`Writes`). Arrays hold items with commas between them, objects hold keys and values.
Blanks may stand around every item, key and value, and around the text as a whole.

**Theorem (`read?_of_writes`).** A text that writes a tree is read as that tree.

The reader is followed from the place before a value to the place after it (`finish_writes`),
whatever is open around the value and whatever comes after it. Only a number needs to know what
comes after it: it ends where a blank, a comma, a bracket or the end of the text shows that it ends.
-/

namespace DirectoryLookup.Json

open Number (hexValue?)

/-! ## Leaves -/

/-- Characters that may stand between tokens. -/
def IsBlank (text : List Char) : Prop :=
  ∀ c ∈ text, isSpace c = true

/-- What may stand between quotes: characters from U+0020 on other than the quote and the
backslash, escapes of one letter, and escapes of four hexadecimal digits. -/
inductive Raw : List Char → Prop
  | nil : Raw []
  | plain {c : Char} {raw : List Char} :
      c ≠ '"' → c ≠ '\\' → 0x20 ≤ c.toNat → Raw raw → Raw (c :: raw)
  | short {c : Char} {raw : List Char} :
      (shortEscape? c).isSome → Raw raw → Raw ('\\' :: c :: raw)
  | hex {a b c d : Char} {raw : List Char} :
      (hexValue? a).isSome → (hexValue? b).isSome → (hexValue? c).isSome → (hexValue? d).isSome →
      Raw raw → Raw ('\\' :: 'u' :: a :: b :: c :: d :: raw)

/-- A digit or several. -/
def IsDigits (text : List Char) : Prop :=
  text ≠ [] ∧ ∀ c ∈ text, c.isDigit = true

/-- The part of a number before the point: a zero, or digits that do not start with one. -/
inductive Whole : List Char → Prop
  | zero : Whole ['0']
  | digits {c : Char} {text : List Char} :
      c ≠ '0' → c.isDigit = true → (∀ d ∈ text, d.isDigit = true) → Whole (c :: text)

/-- The fraction of a number, with its point. -/
inductive Fraction : List Char → Prop
  | none : Fraction []
  | some {text : List Char} : IsDigits text → Fraction ('.' :: text)

/-- The exponent of a number. -/
inductive Exponent : List Char → Prop
  | none : Exponent []
  | some {e : Char} {sign text : List Char} :
      e = 'e' ∨ e = 'E' → sign = [] ∨ sign = ['+'] ∨ sign = ['-'] → IsDigits text →
      Exponent (e :: (sign ++ text))

/-- How numbers are written. -/
inductive Numeral : List Char → Prop
  | mk {sign whole fraction exponent : List Char} :
      sign = [] ∨ sign = ['-'] → Whole whole → Fraction fraction → Exponent exponent →
      Numeral (sign ++ whole ++ (fraction ++ exponent))

/-! ## Trees -/

/-- The texts of one thing or several, with commas between them and blanks around each. -/
inductive Separated {α : Type} (R : α → List Char → Prop) : List α → List Char → Prop
  | last {a : α} {before text after : List Char} :
      IsBlank before → R a text → IsBlank after → Separated R [a] (before ++ text ++ after)
  | more {a : α} {as : List α} {before text after rest : List Char} :
      IsBlank before → R a text → IsBlank after → Separated R as rest →
      Separated R (a :: as) (before ++ text ++ after ++ ',' :: rest)

/-- The text of a key and a value, given the texts of values. -/
inductive Member (R : Node → List Char → Prop) : List Char × Node → List Char → Prop
  | mk {key before after text : List Char} {n : Node} :
      Raw key → IsBlank before → IsBlank after → R n text →
      Member R (key, n) (Node.quoted key ++ before ++ ':' :: (after ++ text))

/-- `Writes n text`: the text writes the tree, and starts and ends with a token. -/
inductive Writes : Node → List Char → Prop
  | null : Writes .null ['n', 'u', 'l', 'l']
  | isTrue : Writes (.bool true) ['t', 'r', 'u', 'e']
  | isFalse : Writes (.bool false) ['f', 'a', 'l', 's', 'e']
  | number {digits : List Char} : Numeral digits → Writes (.number digits) digits
  | string {raw : List Char} : Raw raw → Writes (.string raw) (Node.quoted raw)
  | emptyArray {blank : List Char} : IsBlank blank → Writes (.array []) ('[' :: blank ++ [']'])
  | array {items : List Node} {text : List Char} :
      Separated Writes items text → Writes (.array items) ('[' :: text ++ [']'])
  | emptyObject {blank : List Char} : IsBlank blank → Writes (.object []) ('{' :: blank ++ ['}'])
  | object {members : List (List Char × Node)} {text : List Char} :
      Separated (Member Writes) members text →
      Writes (.object members) ('{' :: text ++ ['}'])

theorem isSpace_of_isDigit {c : Char} (h : c.isDigit = true) : isSpace c = false := by
  have hne {d : Char} (hd : d.isDigit = false) : c ≠ d := by
    rintro rfl
    rw [h] at hd
    cases hd
  simp only [isSpace, Bool.or_eq_false_iff, beq_eq_false_iff_ne]
  exact ⟨⟨⟨hne rfl, hne rfl⟩, hne rfl⟩, hne rfl⟩

/-- A number starts with a minus or a digit. -/
theorem Numeral.eq_cons {digits : List Char} (h : Numeral digits) :
    ∃ c s, digits = c :: s ∧ (c = '-' ∨ c.isDigit = true) := by
  obtain ⟨rfl | rfl, hwhole, -, -⟩ := h
  · cases hwhole with
    | zero => exact ⟨_, _, rfl, .inr rfl⟩
    | digits _ hd _ => exact ⟨_, _, rfl, .inr hd⟩
  · exact ⟨_, _, rfl, .inl rfl⟩

/-- No tree starts with a blank or with the bracket that closes an array. -/
theorem Writes.eq_cons {n : Node} {text : List Char} (h : Writes n text) :
    ∃ c s, text = c :: s ∧ isSpace c = false ∧ c ≠ ']' := by
  cases h with
  | number h =>
    obtain ⟨c, s, rfl, rfl | hc⟩ := h.eq_cons
    · exact ⟨_, s, rfl, by decide, by decide⟩
    · refine ⟨c, s, rfl, isSpace_of_isDigit hc, ?_⟩
      rintro rfl
      cases hc
  | _ => exact ⟨_, _, rfl, by decide, by decide⟩

/-! ## Reading on -/

/-- Blanks are passed over between tokens, and only there. -/
def Place.isBetween : Place → Bool
  | .value | .firstItem | .firstKey | .key _ | .colon _ _ | .done _ => true
  | _ => false

namespace Reader

/-- What comes of reading a text to its end. -/
def finish (r : Reader) (text : List Char) : Option Node :=
  (r.run text).bind result?

@[simp] theorem finish_nil (r : Reader) : r.finish [] = r.result? := rfl

@[simp] theorem finish_cons (r : Reader) (c : Char) (text : List Char) :
    r.finish (c :: text) = (r.step c).bind (·.finish text) := by
  simp [finish, run, List.foldlM_cons, Option.bind_assoc]

variable {opened : List Frame}

theorem step_space {place : Place} (hplace : place.isBetween = true) {c : Char}
    (h : isSpace c = true) : step ⟨place, opened⟩ c = some ⟨place, opened⟩ := by
  cases place with
  | keyText | text | number | word => cases hplace
  | _ => simp [step, afterValue?, h]

theorem finish_blank {place : Place} (hplace : place.isBetween = true) {blank : List Char}
    (h : IsBlank blank) (rest : List Char) :
    finish ⟨place, opened⟩ (blank ++ rest) = finish ⟨place, opened⟩ rest := by
  induction blank with
  | nil => rfl
  | cons c blank ih =>
    rw [List.cons_append, finish_cons, step_space hplace (h c List.mem_cons_self), Option.bind_some]
    exact ih fun d hd => h d (List.mem_cons_of_mem _ hd)

/-- The reader takes what stands between quotes wherever it collects a text. -/
theorem finish_raw {place : Escape → List Char → Place}
    (hstep : ∀ e acc c, ¬(e = .none ∧ c = '"') →
      step ⟨place e acc, opened⟩ c = (e.step c).map fun e => ⟨place e (c :: acc), opened⟩)
    {raw : List Char} (h : Raw raw) (acc rest : List Char) :
    finish ⟨place .none acc, opened⟩ (raw ++ rest) =
      finish ⟨place .none (raw.reverse ++ acc), opened⟩ rest := by
  induction h generalizing acc with
  | nil => rfl
  | @plain c raw hq hb hc _ ih =>
    have h1 := hstep .none acc c (by simp [hq])
    have h2 : Escape.step .none c = some .none := by
      rw [Escape.step, if_neg hb, if_neg (by omega)]
    rw [List.cons_append, finish_cons, h1, h2, Option.map_some, Option.bind_some, ih]
    simp
  | @short c raw hc _ ih =>
    have h1 : step ⟨place .none acc, opened⟩ '\\' = some ⟨place .begun ('\\' :: acc), opened⟩ := by
      rw [hstep _ _ _ (by decide)]
      rfl
    have h2 : step ⟨place .begun ('\\' :: acc), opened⟩ c =
        some ⟨place .none (c :: '\\' :: acc), opened⟩ := by
      have hu : c ≠ 'u' := by
        rintro rfl
        exact absurd hc (by decide)
      rw [hstep _ _ _ (by simp)]
      simp [Escape.step, hu, hc]
    rw [List.cons_append, List.cons_append, finish_cons, h1, Option.bind_some, finish_cons, h2,
      Option.bind_some, ih]
    simp
  | @hex a b c d raw ha hb hc hd _ ih =>
    have h1 : step ⟨place .none acc, opened⟩ '\\' = some ⟨place .begun ('\\' :: acc), opened⟩ := by
      rw [hstep _ _ _ (by decide)]
      rfl
    have h2 : step ⟨place .begun ('\\' :: acc), opened⟩ 'u' =
        some ⟨place (.hex 3) ('u' :: '\\' :: acc), opened⟩ := by
      rw [hstep _ _ _ (by simp)]
      rfl
    have digit (owed : Nat) (acc : List Char) {x : Char} (hx : (hexValue? x).isSome) :
        step ⟨place (.hex (owed + 1)) acc, opened⟩ x =
          some ⟨place (.hex owed) (x :: acc), opened⟩ := by
      rw [hstep _ _ _ (by simp)]
      simp [Escape.step, Option.ne_none_iff_isSome, hx]
    have last (acc : List Char) {x : Char} (hx : (hexValue? x).isSome) :
        step ⟨place (.hex 0) acc, opened⟩ x = some ⟨place .none (x :: acc), opened⟩ := by
      rw [hstep _ _ _ (by simp)]
      simp [Escape.step, Option.ne_none_iff_isSome, hx]
    simp only [List.cons_append, finish_cons]
    rw [h1, Option.bind_some, h2, Option.bind_some, digit _ _ ha, Option.bind_some, digit _ _ hb,
      Option.bind_some, digit _ _ hc, Option.bind_some, last _ hd, Option.bind_some, ih]
    simp

theorem quoted_append (raw rest : List Char) :
    Node.quoted raw ++ rest = '"' :: (raw ++ '"' :: rest) := by
  simp [Node.quoted]

/-- A text between quotes leads from the place before it to the place after it. -/
theorem finish_quoted {before after : Place} {place : Escape → List Char → Place}
    (hstart : step ⟨before, opened⟩ '"' = some ⟨place .none [], opened⟩)
    (hstep : ∀ e acc c, ¬(e = .none ∧ c = '"') →
      step ⟨place e acc, opened⟩ c = (e.step c).map fun e => ⟨place e (c :: acc), opened⟩)
    {raw : List Char} (h : Raw raw)
    (hend : step ⟨place .none raw.reverse, opened⟩ '"' = some ⟨after, opened⟩)
    (rest : List Char) :
    finish ⟨before, opened⟩ (Node.quoted raw ++ rest) = finish ⟨after, opened⟩ rest := by
  rw [quoted_append, finish_cons, hstart, Option.bind_some, finish_raw hstep h, List.append_nil,
    finish_cons, hend, Option.bind_some]

/-- A text between quotes is read as a string. -/
theorem finish_string {raw : List Char} (h : Raw raw) (rest : List Char) :
    finish ⟨.value, opened⟩ (Node.quoted raw ++ rest) =
      finish ⟨.done (.string raw), opened⟩ rest := by
  have hstart : step ⟨.value, opened⟩ '"' = some ⟨.text .none [], opened⟩ := rfl
  have hend : step ⟨.text .none raw.reverse, opened⟩ '"' = some ⟨.done (.string raw), opened⟩ := by
    simp [step]
  exact finish_quoted hstart (fun e acc c hc => by simp only [step, if_neg hc]) h hend rest

/-- A text between quotes is read as a key. -/
theorem finish_key {members : Members} {key : List Char} (h : Raw key) (rest : List Char) :
    finish ⟨.key members, opened⟩ (Node.quoted key ++ rest) =
      finish ⟨.colon members key, opened⟩ rest := by
  have hstart : step ⟨.key members, opened⟩ '"' = some ⟨.keyText members .none [], opened⟩ := rfl
  have hend : step ⟨.keyText members .none key.reverse, opened⟩ '"' =
      some ⟨.colon members key, opened⟩ := by
    simp [step]
  exact finish_quoted hstart (fun e acc c hc => by simp only [step, if_neg hc]) h hend rest

/-! ## Numbers -/

/-- More characters of a number. -/
theorem finish_digits {d d' : Digits} {text : List Char} (h : text.foldlM Digits.step d = some d')
    (read rest : List Char) :
    finish ⟨.number d read, opened⟩ (text ++ rest) =
      finish ⟨.number d' (text.reverse ++ read), opened⟩ rest := by
  induction text generalizing d read with
  | nil =>
    obtain rfl := Option.some.inj h
    rfl
  | cons c text ih =>
    rw [List.foldlM_cons] at h
    obtain ⟨e, hc, h⟩ := Option.bind_eq_some_iff.1 h
    have hstep : step ⟨.number d read, opened⟩ c = some ⟨.number e (c :: read), opened⟩ := by
      simp only [step, hc]
    rw [List.cons_append, finish_cons, hstep, Option.bind_some, ih h]
    simp

theorem digitsStep_of_isDigit {d : Digits} (hd : d = .whole ∨ d = .fraction ∨ d = .exponentDigits)
    {c : Char} (hc : c.isDigit = true) : d.step c = some d := by
  rcases hd with rfl | rfl | rfl <;> simp [Digits.step, hc]

theorem foldlM_digits {d : Digits} (hd : d = .whole ∨ d = .fraction ∨ d = .exponentDigits)
    {text : List Char} (h : ∀ c ∈ text, c.isDigit = true) :
    text.foldlM Digits.step d = some d := by
  induction text with
  | nil => rfl
  | cons c text ih =>
    rw [List.foldlM_cons, digitsStep_of_isDigit hd (h c List.mem_cons_self)]
    exact ih fun c hc => h c (List.mem_cons_of_mem _ hc)

/-- Digits lead to a place for digits from a place that asks for one. -/
theorem foldlM_isDigits {d d' : Digits} (hd : ∀ c, c.isDigit = true → d.step c = some d')
    (hd' : d' = .whole ∨ d' = .fraction ∨ d' = .exponentDigits) {text : List Char}
    (h : IsDigits text) : text.foldlM Digits.step d = some d' := by
  obtain ⟨hne, h⟩ := h
  cases text with
  | nil => exact absurd rfl hne
  | cons c text =>
    rw [List.foldlM_cons, hd c (h c List.mem_cons_self)]
    exact foldlM_digits hd' fun c hc => h c (List.mem_cons_of_mem _ hc)

theorem foldlM_fraction {d : Digits} (hd : d = .zero ∨ d = .whole) {text : List Char}
    (h : Fraction text) :
    ∃ d', text.foldlM Digits.step d = some d' ∧ (d' = .zero ∨ d' = .whole ∨ d' = .fraction) := by
  cases h with
  | none =>
    refine ⟨d, rfl, ?_⟩
    rcases hd with rfl | rfl <;> simp
  | some h =>
    refine ⟨.fraction, ?_, by simp⟩
    have hpoint : d.step '.' = some .point := by
      rcases hd with rfl | rfl <;> rfl
    rw [List.foldlM_cons, hpoint]
    exact foldlM_isDigits (fun c hc => by simp [Digits.step, hc]) (by simp) h

theorem foldlM_exponent {d : Digits} (hd : d = .zero ∨ d = .whole ∨ d = .fraction)
    {text : List Char} (h : Exponent text) :
    ∃ d', text.foldlM Digits.step d = some d' ∧ d'.isComplete = true := by
  cases h with
  | none =>
    refine ⟨d, rfl, ?_⟩
    rcases hd with rfl | rfl | rfl <;> rfl
  | @some e sign text he hsign h =>
    refine ⟨.exponentDigits, ?_, rfl⟩
    have hexp : d.step e = some .exponent := by
      rcases hd with rfl | rfl | rfl <;> rcases he with rfl | rfl <;> rfl
    rw [List.foldlM_cons, hexp]
    show (sign ++ text).foldlM Digits.step .exponent = _
    rcases hsign with rfl | rfl | rfl
    · exact foldlM_isDigits (fun c hc => by simp [Digits.step, hc]) (by simp) h
    · exact foldlM_isDigits (d := .exponentSign) (fun c hc => by simp [Digits.step, hc]) (by simp) h
    · exact foldlM_isDigits (d := .exponentSign) (fun c hc => by simp [Digits.step, hc]) (by simp) h

/-- The sign and the part before the point, from the place of a value on. -/
theorem step_whole {sign whole : List Char} (hsign : sign = [] ∨ sign = ['-'])
    (h : Whole whole) :
    ∃ c text d d', sign ++ whole = c :: text ∧
      step ⟨.value, opened⟩ c = some ⟨.number d [c], opened⟩ ∧
      text.foldlM Digits.step d = some d' ∧ (d' = .zero ∨ d' = .whole) := by
  have hnonzero {c : Char} (hc : c ≠ '0') (hd : c.isDigit = true) :
      step ⟨.value, opened⟩ c = some ⟨.number .whole [c], opened⟩ ∧
        Digits.minus.step c = some .whole := by
    have hne : c ≠ '"' ∧ c ≠ '[' ∧ c ≠ '{' ∧ c ≠ 'n' ∧ c ≠ 't' ∧ c ≠ 'f' ∧ c ≠ '-' := by
      refine ⟨?_, ?_, ?_, ?_, ?_, ?_, ?_⟩ <;> (rintro rfl; cases hd)
    simp [step, startValue?, Digits.start?, Digits.step, isSpace_of_isDigit hd, hne, hc, hd]
  rcases hsign with rfl | rfl
  · cases h with
    | zero => exact ⟨'0', [], .zero, .zero, rfl, rfl, rfl, .inl rfl⟩
    | @digits c text hc hd htext =>
      exact ⟨c, text, .whole, .whole, rfl, (hnonzero hc hd).1, foldlM_digits (.inl rfl) htext,
        .inr rfl⟩
  · cases h with
    | zero => exact ⟨'-', ['0'], .minus, .zero, rfl, rfl, rfl, .inl rfl⟩
    | @digits c text hc hd htext =>
      refine ⟨'-', c :: text, .minus, .whole, rfl, rfl, ?_, .inr rfl⟩
      rw [List.foldlM_cons, (hnonzero hc hd).2]
      exact foldlM_digits (.inl rfl) htext

/-- The characters that show that a number before them has ended. -/
def isStop (c : Char) : Bool :=
  isSpace c || c == ',' || c == ']' || c == '}'

/-- A text before which a number ends. -/
def Stops (text : List Char) : Prop :=
  ∀ c ∈ text.head?, isStop c = true

theorem stops_nil : Stops [] := by
  intro c hc
  cases hc

theorem stops_append {blank : List Char} (h : IsBlank blank) {c : Char} (hc : isStop c = true)
    (rest : List Char) : Stops (blank ++ c :: rest) := by
  intro d hd
  cases blank with
  | nil =>
    obtain rfl := Option.some.inj hd
    exact hc
  | cons b blank =>
    obtain rfl := Option.some.inj hd
    simp [isStop, h b List.mem_cons_self]

theorem digitsStep_of_isStop {d : Digits} {c : Char} (hc : isStop c = true) : d.step c = none := by
  simp only [isStop, isSpace, Bool.or_eq_true, beq_iff_eq] at hc
  rcases hc with (((((rfl | rfl) | rfl) | rfl) | rfl) | rfl) | rfl <;> cases d <;> rfl

/-- A number that may end ends before such a text. -/
theorem finish_number {d : Digits} (hd : d.isComplete = true) {rest : List Char} (h : Stops rest)
    (read : List Char) :
    finish ⟨.number d read, opened⟩ rest = finish ⟨.done (.number read.reverse), opened⟩ rest := by
  cases rest with
  | nil => cases opened <;> simp [result?, hd]
  | cons c rest => simp [step, digitsStep_of_isStop (h c rfl), hd]

theorem finish_numeral {digits : List Char} (h : Numeral digits) {rest : List Char}
    (hrest : Stops rest) :
    finish ⟨.value, opened⟩ (digits ++ rest) = finish ⟨.done (.number digits), opened⟩ rest := by
  obtain ⟨hsign, hwhole, hfraction, hexponent⟩ := h
  obtain ⟨c, text, d, d₁, heq, hstep, h₁, hd₁⟩ := @step_whole opened _ _ hsign hwhole
  obtain ⟨d₂, h₂, hd₂⟩ := foldlM_fraction hd₁ hfraction
  obtain ⟨d₃, h₃, hd₃⟩ := foldlM_exponent hd₂ hexponent
  rw [heq]
  simp only [List.cons_append, List.append_assoc]
  rw [finish_cons, hstep, Option.bind_some, finish_digits h₁, finish_digits h₂, finish_digits h₃,
    finish_number hd₃ hrest]
  simp

/-! ## Arrays and objects -/

/-- `IsRead n`: whatever is open and whatever comes next, the texts that write the tree take the
reader from before a value to behind this one. -/
def IsRead (n : Node) : Prop :=
  ∀ (text : List Char) (opened : List Frame) (rest : List Char), Writes n text → Stops rest →
    finish ⟨.value, opened⟩ (text ++ rest) = finish ⟨.done n, opened⟩ rest

/-- The same with blanks around the text, as long as something comes next. -/
theorem IsRead.padded {n : Node} (h : IsRead n) {before text after : List Char}
    (hbefore : IsBlank before) (htext : Writes n text) (hafter : IsBlank after) {c : Char}
    (hc : isStop c = true) (rest : List Char) :
    finish ⟨.value, opened⟩ (before ++ (text ++ (after ++ c :: rest))) =
      finish ⟨.done n, opened⟩ (c :: rest) := by
  rw [finish_blank rfl hbefore, h _ _ _ htext (stops_append hafter hc rest),
    finish_blank rfl hafter]

/-- The rest of an array, from before an item on. -/
theorem finish_items {items : List Node} {text : List Char} (h : Separated Writes items text)
    (ih : ∀ n ∈ items, IsRead n) (acc : List Node) (rest : List Char) :
    finish ⟨.value, .array acc :: opened⟩ (text ++ ']' :: rest) =
      finish ⟨.done (.array (acc.reverse ++ items)), opened⟩ rest := by
  induction h generalizing acc with
  | @last n _ _ _ hbefore htext hafter =>
    have hclose : step ⟨.done n, .array acc :: opened⟩ ']' =
        some ⟨.done (.array (acc.reverse ++ [n])), opened⟩ := by
      simp [step, afterValue?, isSpace]
    rw [List.append_assoc, List.append_assoc,
      (ih n List.mem_cons_self).padded hbefore htext hafter rfl, finish_cons, hclose]
    rfl
  | @more n ns _ _ _ _ hbefore htext hafter _ ihs =>
    have hcomma : step ⟨.done n, .array acc :: opened⟩ ',' =
        some ⟨.value, .array (n :: acc) :: opened⟩ := rfl
    rw [List.append_assoc, List.append_assoc, List.append_assoc, List.cons_append,
      (ih n List.mem_cons_self).padded hbefore htext hafter rfl, finish_cons, hcomma,
      Option.bind_some, ihs fun n hn => ih n (List.mem_cons_of_mem _ hn)]
    simp

/-- A key and its value, from the place before the key on. -/
theorem finish_member {members : Members} {key : List Char} {n : Node} (ih : IsRead n)
    {before text after : List Char} (hbefore : IsBlank before) (h : Member Writes (key, n) text)
    (hafter : IsBlank after) {c : Char} (hc : isStop c = true) (rest : List Char) :
    finish ⟨.key members, opened⟩ (before ++ (text ++ (after ++ c :: rest))) =
      finish ⟨.done n, .object members key :: opened⟩ (c :: rest) := by
  have hvalue : step ⟨.colon members key, opened⟩ ':' =
      some ⟨.value, .object members key :: opened⟩ := rfl
  cases h with
  | mk hraw hleft hright htext =>
    rw [finish_blank rfl hbefore, List.append_assoc, List.append_assoc, finish_key hraw,
      finish_blank rfl hleft, List.cons_append, finish_cons, hvalue, Option.bind_some,
      List.append_assoc, ih.padded hright htext hafter hc]

/-- The rest of an object, from before a key on. -/
theorem finish_members {members : List (List Char × Node)} {text : List Char}
    (h : Separated (Member Writes) members text) (ih : ∀ m ∈ members, IsRead m.2)
    (acc : Members) (rest : List Char) :
    finish ⟨.key acc, opened⟩ (text ++ '}' :: rest) =
      finish ⟨.done (.object (acc.reverse ++ members)), opened⟩ rest := by
  induction h generalizing acc with
  | @last m _ _ _ hbefore htext hafter =>
    have hclose : step ⟨.done m.2, .object acc m.1 :: opened⟩ '}' =
        some ⟨.done (.object (acc.reverse ++ [m])), opened⟩ := by
      simp [step, afterValue?, isSpace]
    rw [List.append_assoc, List.append_assoc,
      finish_member (ih m List.mem_cons_self) hbefore htext hafter rfl, finish_cons, hclose]
    rfl
  | @more m ms _ _ _ _ hbefore htext hafter _ ihs =>
    have hcomma : step ⟨.done m.2, .object acc m.1 :: opened⟩ ',' =
        some ⟨.key (m :: acc), opened⟩ := rfl
    rw [List.append_assoc, List.append_assoc, List.append_assoc, List.cons_append,
      finish_member (ih m List.mem_cons_self) hbefore htext hafter rfl, finish_cons, hcomma,
      Option.bind_some, ihs fun m hm => ih m (List.mem_cons_of_mem _ hm)]
    simp

/-- An array's first item is read as any other: its text does not start with a bracket that closes
the array. -/
theorem finish_firstItem {items : List Node} {text : List Char} (h : Separated Writes items text)
    (rest : List Char) :
    finish ⟨.firstItem, opened⟩ (text ++ rest) = finish ⟨.value, opened⟩ (text ++ rest) := by
  have first {n : Node} {before text : List Char} (hbefore : IsBlank before) (h : Writes n text)
      (rest : List Char) :
      finish ⟨.firstItem, opened⟩ (before ++ (text ++ rest)) =
        finish ⟨.value, opened⟩ (before ++ (text ++ rest)) := by
    rw [finish_blank rfl hbefore, finish_blank rfl hbefore]
    obtain ⟨c, s, rfl, hc, hne⟩ := h.eq_cons
    rw [List.cons_append, finish_cons, finish_cons]
    simp [step, hc, hne]
  cases h with
  | last hbefore htext _ => simpa using first hbefore htext _
  | more hbefore htext _ _ => simpa using first hbefore htext _

/-- An object's first key is read as any other. -/
theorem finish_firstKey {members : List (List Char × Node)} {text : List Char}
    (h : Separated (Member Writes) members text) (rest : List Char) :
    finish ⟨.firstKey, opened⟩ (text ++ rest) = finish ⟨.key [], opened⟩ (text ++ rest) := by
  have first {m : List Char × Node} {before text : List Char} (hbefore : IsBlank before)
      (h : Member Writes m text) (rest : List Char) :
      finish ⟨.firstKey, opened⟩ (before ++ (text ++ rest)) =
        finish ⟨.key [], opened⟩ (before ++ (text ++ rest)) := by
    rw [finish_blank rfl hbefore, finish_blank rfl hbefore]
    cases h with
    | mk =>
      rw [List.append_assoc, List.append_assoc, quoted_append, finish_cons, finish_cons]
      rfl
  cases h with
  | last hbefore htext _ => simpa using first hbefore htext _
  | more hbefore htext _ _ => simpa using first hbefore htext _

theorem sizeOf_lt_of_mem_members {m : List Char × Node} {members : List (List Char × Node)}
    (h : m ∈ members) : sizeOf m.2 < 1 + sizeOf members := by
  have hmem := List.sizeOf_lt_of_mem h
  have hpair : sizeOf m = 1 + sizeOf m.1 + sizeOf m.2 := by
    cases m
    rfl
  omega

/-- **A text that writes a tree takes the reader from before a value to behind this tree.** -/
theorem finish_writes (n : Node) : IsRead n := by
  intro text opened rest h hrest
  cases h with
  | null => rfl
  | isTrue => rfl
  | isFalse => rfl
  | number h => exact finish_numeral h hrest
  | string h => exact finish_string h rest
  | emptyArray h =>
    have hopen : step ⟨.value, opened⟩ '[' = some ⟨.firstItem, .array [] :: opened⟩ := rfl
    rw [List.cons_append, List.cons_append, List.append_assoc, finish_cons, hopen, Option.bind_some,
      finish_blank rfl h, List.cons_append, finish_cons]
    rfl
  | @array items text h =>
    have hopen : step ⟨.value, opened⟩ '[' = some ⟨.firstItem, .array [] :: opened⟩ := rfl
    rw [List.cons_append, List.cons_append, List.append_assoc, finish_cons, hopen, Option.bind_some,
      finish_firstItem h]
    exact finish_items h (fun n _ => finish_writes n) [] rest
  | emptyObject h =>
    have hopen : step ⟨.value, opened⟩ '{' = some ⟨.firstKey, opened⟩ := rfl
    rw [List.cons_append, List.cons_append, List.append_assoc, finish_cons, hopen, Option.bind_some,
      finish_blank rfl h, List.cons_append, finish_cons]
    rfl
  | @object members text h =>
    have hopen : step ⟨.value, opened⟩ '{' = some ⟨.firstKey, opened⟩ := rfl
    rw [List.cons_append, List.cons_append, List.append_assoc, finish_cons, hopen, Option.bind_some,
      finish_firstKey h]
    exact finish_members h
      (fun m hm =>
        have := sizeOf_lt_of_mem_members hm
        finish_writes m.2)
      [] rest
termination_by n

end Reader

/-- **A text that writes a tree, with blanks around it or none, is read as that tree.** -/
theorem read?_of_writes {n : Node} {before text after : List Char} (hbefore : IsBlank before)
    (h : Writes n text) (hafter : IsBlank after) :
    Node.read? (before ++ text ++ after) = some n := by
  have hstops : Reader.Stops after := by
    cases after with
    | nil => exact Reader.stops_nil
    | cons c after =>
      intro d hd
      obtain rfl := Option.some.inj hd
      simp [Reader.isStop, hafter c List.mem_cons_self]
  show Reader.finish ⟨.value, []⟩ (before ++ text ++ after) = some n
  rw [List.append_assoc, Reader.finish_blank rfl hbefore,
    Reader.finish_writes n _ _ _ h hstops, ← List.append_nil after,
    Reader.finish_blank rfl hafter]
  rfl

end DirectoryLookup.Json
