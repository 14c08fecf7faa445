import DirectoryLookup.Proofs.Json.Grammar
import DirectoryLookup.Text.CodePoint

/-!
# What stands for a text

Between quotes a text may be written in many ways (`Stands`). A character stands for itself unless
it is the quote, the backslash or a control character. Eight characters have an escape of one
letter, every character below U+10000 has escapes of four hexadecimal digits in either case, and
every other has such escapes for the two halves of its surrogate pair.

**Theorem (`stands_iff`).** What can stand between quotes is read as a text exactly when it stands
for this text.
-/

namespace DirectoryLookup.Json

open Number (hexValue?)

/-- `Stands text raw`: what stands between quotes for a text, character by character. -/
inductive Stands : List Char → List Char → Prop
  | nil : Stands [] []
  | plain {c : Char} {text raw : List Char} :
      c ≠ '"' → c ≠ '\\' → 0x20 ≤ c.toNat → Stands text raw → Stands (c :: text) (c :: raw)
  | short {c e : Char} {text raw : List Char} :
      shortEscape? e = some c → Stands text raw → Stands (c :: text) ('\\' :: e :: raw)
  | hex {c x₁ x₂ x₃ x₄ : Char} {text raw : List Char} :
      hexValue4? x₁ x₂ x₃ x₄ = some c.toNat → Stands text raw →
      Stands (c :: text) ('\\' :: 'u' :: x₁ :: x₂ :: x₃ :: x₄ :: raw)
  | pair {c x₁ x₂ x₃ x₄ y₁ y₂ y₃ y₄ : Char} {text raw : List Char} :
      0x10000 ≤ c.toNat →
      hexValue4? x₁ x₂ x₃ x₄ = some (0xD800 + (c.toNat - 0x10000) / 0x400) →
      hexValue4? y₁ y₂ y₃ y₄ = some (0xDC00 + (c.toNat - 0x10000) % 0x400) → Stands text raw →
      Stands (c :: text)
        ('\\' :: 'u' :: x₁ :: x₂ :: x₃ :: x₄ :: '\\' :: 'u' :: y₁ :: y₂ :: y₃ :: y₄ :: raw)

/-! ## Characters and their numbers -/

theorem isHighSurrogate_iff {n : Nat} : isHighSurrogate n = true ↔ 0xD800 ≤ n ∧ n ≤ 0xDBFF := by
  simp [isHighSurrogate]

theorem isLowSurrogate_iff {n : Nat} : isLowSurrogate n = true ↔ 0xDC00 ≤ n ∧ n ≤ 0xDFFF := by
  simp [isLowSurrogate]

/-- No character is half of a surrogate pair. -/
theorem not_surrogate_toNat (c : Char) :
    isHighSurrogate c.toNat = false ∧ isLowSurrogate c.toNat = false := by
  have hc := Text.toNat_range c
  rw [← Bool.not_eq_true, ← Bool.not_eq_true, isHighSurrogate_iff, isLowSurrogate_iff]
  omega

theorem ofSurrogates_toNat {c : Char} (hc : 0x10000 ≤ c.toNat) :
    ofSurrogates (0xD800 + (c.toNat - 0x10000) / 0x400) (0xDC00 + (c.toNat - 0x10000) % 0x400) =
      c := by
  have hsum : 0x10000 + (0xD800 + (c.toNat - 0x10000) / 0x400 - 0xD800) * 0x400 +
      (0xDC00 + (c.toNat - 0x10000) % 0x400 - 0xDC00) = c.toNat := by omega
  rw [ofSurrogates, hsum, Char.ofNat_toNat]

theorem hexValue4?_eq_some_iff {a b c d : Char} {n : Nat} :
    hexValue4? a b c d = some n ↔
      ∃ a' b' c' d', hexValue? a = some a' ∧ hexValue? b = some b' ∧ hexValue? c = some c' ∧
        hexValue? d = some d' ∧ ((a' * 16 + b') * 16 + c') * 16 + d' = n := by
  simp [hexValue4?, Option.bind_eq_some_iff]

theorem isSome_of_hexValue4? {a b c d : Char} {n : Nat} (h : hexValue4? a b c d = some n) :
    (hexValue? a).isSome ∧ (hexValue? b).isSome ∧ (hexValue? c).isSome ∧ (hexValue? d).isSome := by
  obtain ⟨_, _, _, _, ha, hb, hc, hd, -⟩ := hexValue4?_eq_some_iff.1 h
  rw [ha, hb, hc, hd]
  exact ⟨rfl, rfl, rfl, rfl⟩

theorem exists_hexValue4? {a b c d : Char} (ha : (hexValue? a).isSome) (hb : (hexValue? b).isSome)
    (hc : (hexValue? c).isSome) (hd : (hexValue? d).isSome) :
    ∃ n, hexValue4? a b c d = some n := by
  obtain ⟨_, ha⟩ := Option.isSome_iff_exists.1 ha
  obtain ⟨_, hb⟩ := Option.isSome_iff_exists.1 hb
  obtain ⟨_, hc⟩ := Option.isSome_iff_exists.1 hc
  obtain ⟨_, hd⟩ := Option.isSome_iff_exists.1 hd
  exact ⟨_, hexValue4?_eq_some_iff.2 ⟨_, _, _, _, ha, hb, hc, hd, rfl⟩⟩

theorem lt_of_hexValue? {a : Char} {n : Nat} (h : hexValue? a = some n) : n < 16 := by
  have le_of {c d : Char} (h : c ≤ d) : c.toNat ≤ d.toNat := UInt32.le_iff_toNat_le.1 h
  unfold hexValue? at h
  split_ifs at h with h₁ h₂ h₃ <;> obtain rfl := Option.some.inj h
  · have hle : a.toNat ≤ 57 := le_of h₁.2
    have hzero : '0'.toNat = 48 := rfl
    omega
  · have hle : a.toNat ≤ 102 := le_of h₂.2
    have hzero : 'a'.toNat = 97 := rfl
    omega
  · have hle : a.toNat ≤ 70 := le_of h₃.2
    have hzero : 'A'.toNat = 65 := rfl
    omega

theorem lt_of_hexValue4? {a b c d : Char} {n : Nat} (h : hexValue4? a b c d = some n) :
    n < 0x10000 := by
  obtain ⟨_, _, _, _, ha, hb, hc, hd, hn⟩ := hexValue4?_eq_some_iff.1 h
  have := lt_of_hexValue? ha
  have := lt_of_hexValue? hb
  have := lt_of_hexValue? hc
  have := lt_of_hexValue? hd
  omega

theorem toNat_ofNat_of_isValidChar {n : Nat} (h : n.isValidChar) : (Char.ofNat n).toNat = n := by
  rw [Char.ofNat, dif_pos h]
  rfl

theorem toNat_ofNat_of_not_surrogate {n : Nat} (hlt : n < 0x10000)
    (hhigh : isHighSurrogate n = false) (hlow : isLowSurrogate n = false) :
    (Char.ofNat n).toNat = n := by
  rw [← Bool.not_eq_true, isHighSurrogate_iff] at hhigh
  rw [← Bool.not_eq_true, isLowSurrogate_iff] at hlow
  apply toNat_ofNat_of_isValidChar
  simp only [Nat.isValidChar]
  omega

/-- The halves of a pair are told from the character it stands for. -/
theorem ofSurrogates_halves {n m : Nat} (hhigh : isHighSurrogate n = true)
    (hlow : isLowSurrogate m = true) :
    0x10000 ≤ (ofSurrogates n m).toNat ∧
      0xD800 + ((ofSurrogates n m).toNat - 0x10000) / 0x400 = n ∧
      0xDC00 + ((ofSurrogates n m).toNat - 0x10000) % 0x400 = m := by
  rw [isHighSurrogate_iff] at hhigh
  rw [isLowSurrogate_iff] at hlow
  have hvalid : (0x10000 + (n - 0xD800) * 0x400 + (m - 0xDC00)).isValidChar := by
    simp only [Nat.isValidChar]
    omega
  rw [ofSurrogates, toNat_ofNat_of_isValidChar hvalid]
  omega

/-! ## Reading one character -/

section Decode

variable {c e x₁ x₂ x₃ x₄ y₁ y₂ y₃ y₄ : Char} {n m : Nat} (raw : List Char)

theorem decode_plain (h : c ≠ '\\') : decode (c :: raw) = (decode raw).map (c :: ·) := by
  simp [decode, h]

theorem decode_short (h : shortEscape? e = some c) :
    decode ('\\' :: e :: raw) = (decode raw).map (c :: ·) := by
  have hu : e ≠ 'u' := by
    rintro rfl
    cases h
  simp [decode, hu, h]

theorem decode_hex (h : hexValue4? x₁ x₂ x₃ x₄ = some n) (hhigh : isHighSurrogate n = false)
    (hlow : isLowSurrogate n = false) :
    decode ('\\' :: 'u' :: x₁ :: x₂ :: x₃ :: x₄ :: raw) =
      (decode raw).map (Char.ofNat n :: ·) := by
  rw [decode, h]
  simp only [hhigh, hlow, Bool.false_eq_true, if_false]

theorem decode_pair (h : hexValue4? x₁ x₂ x₃ x₄ = some n) (hhigh : isHighSurrogate n = true)
    (h' : hexValue4? y₁ y₂ y₃ y₄ = some m) (hlow : isLowSurrogate m = true) :
    decode ('\\' :: 'u' :: x₁ :: x₂ :: x₃ :: x₄ :: '\\' :: 'u' :: y₁ :: y₂ :: y₃ :: y₄ :: raw) =
      (decode raw).map (ofSurrogates n m :: ·) := by
  rw [decode, h]
  simp only [hhigh, if_true, h', hlow]

/-- The first half of a surrogate pair is not read without the second. -/
theorem exists_low_of_decode {text : List Char} (h : hexValue4? x₁ x₂ x₃ x₄ = some n)
    (hhigh : isHighSurrogate n = true)
    (hdecode : decode ('\\' :: 'u' :: x₁ :: x₂ :: x₃ :: x₄ :: raw) = some text) :
    ∃ y₁ y₂ y₃ y₄ m rest, raw = '\\' :: 'u' :: y₁ :: y₂ :: y₃ :: y₄ :: rest ∧
      hexValue4? y₁ y₂ y₃ y₄ = some m ∧ isLowSurrogate m = true := by
  rw [decode, h] at hdecode
  simp only [hhigh, if_true] at hdecode
  split at hdecode
  · next y₁ y₂ y₃ y₄ rest =>
    split at hdecode
    · cases hdecode
    · next m hm =>
      split at hdecode
      · next hlow => exact ⟨y₁, y₂, y₃, y₄, m, rest, rfl, hm, hlow⟩
      · cases hdecode
  · cases hdecode

end Decode

/-! ## Reading a text -/

theorem Stands.raw {text raw : List Char} (h : Stands text raw) : Raw raw := by
  induction h with
  | nil => exact .nil
  | plain hquote hbackslash hcontrol _ ih => exact .plain hquote hbackslash hcontrol ih
  | short he _ ih => exact .short (by rw [he]; rfl) ih
  | hex hx _ ih =>
    obtain ⟨h₁, h₂, h₃, h₄⟩ := isSome_of_hexValue4? hx
    exact .hex h₁ h₂ h₃ h₄ ih
  | pair _ hx hy _ ih =>
    obtain ⟨h₁, h₂, h₃, h₄⟩ := isSome_of_hexValue4? hx
    obtain ⟨k₁, k₂, k₃, k₄⟩ := isSome_of_hexValue4? hy
    exact .hex h₁ h₂ h₃ h₄ (.hex k₁ k₂ k₃ k₄ ih)

/-- What stands for a text is read as this text. -/
theorem Stands.decode_eq {text raw : List Char} (h : Stands text raw) : decode raw = some text := by
  induction h with
  | nil => rfl
  | @plain c text raw _ hbackslash _ _ ih =>
    rw [decode_plain raw hbackslash, ih]
    rfl
  | @short c e text raw he _ ih =>
    rw [decode_short raw he, ih]
    rfl
  | @hex c x₁ x₂ x₃ x₄ text raw hx _ ih =>
    obtain ⟨hhigh, hlow⟩ := not_surrogate_toNat c
    rw [decode_hex raw hx hhigh hlow, ih, Char.ofNat_toNat]
    rfl
  | @pair c x₁ x₂ x₃ x₄ y₁ y₂ y₃ y₄ text raw hc hx hy _ ih =>
    have hrange := Text.toNat_range c
    have hhigh : isHighSurrogate (0xD800 + (c.toNat - 0x10000) / 0x400) = true :=
      isHighSurrogate_iff.2 (by omega)
    have hlow : isLowSurrogate (0xDC00 + (c.toNat - 0x10000) % 0x400) = true :=
      isLowSurrogate_iff.2 (by omega)
    rw [decode_pair raw hx hhigh hy hlow, ih, ofSurrogates_toNat hc]
    rfl

/-- What is read as a text stands for it. Half of a surrogate pair needs the other half behind it,
so the induction is on the length and not on the escapes one by one. -/
theorem stands_of_decode {text raw : List Char} (hraw : Raw raw) (h : decode raw = some text) :
    Stands text raw := by
  cases hraw with
  | nil =>
    obtain rfl := Option.some.inj h
    exact .nil
  | @plain c raw hquote hbackslash hcontrol hraw =>
    rw [decode_plain raw hbackslash] at h
    obtain ⟨text, htext, rfl⟩ := Option.map_eq_some_iff.1 h
    exact .plain hquote hbackslash hcontrol (stands_of_decode hraw htext)
  | @short e raw he hraw =>
    obtain ⟨c, he⟩ := Option.isSome_iff_exists.1 he
    rw [decode_short raw he] at h
    obtain ⟨text, htext, rfl⟩ := Option.map_eq_some_iff.1 h
    exact .short he (stands_of_decode hraw htext)
  | @hex x₁ x₂ x₃ x₄ raw h₁ h₂ h₃ h₄ hraw =>
    obtain ⟨n, hn⟩ := exists_hexValue4? h₁ h₂ h₃ h₄
    cases hhigh : isHighSurrogate n with
    | false =>
      cases hlow : isLowSurrogate n with
      | true =>
        rw [decode, hn] at h
        simp [hhigh, hlow] at h
      | false =>
        rw [decode_hex raw hn hhigh hlow] at h
        obtain ⟨text, htext, rfl⟩ := Option.map_eq_some_iff.1 h
        refine .hex ?_ (stands_of_decode hraw htext)
        rw [hn, toNat_ofNat_of_not_surrogate (lt_of_hexValue4? hn) hhigh hlow]
    | true =>
      obtain ⟨y₁, y₂, y₃, y₄, m, rest, rfl, hm, hlow⟩ := exists_low_of_decode raw hn hhigh h
      rw [decode_pair rest hn hhigh hm hlow] at h
      obtain ⟨text, htext, rfl⟩ := Option.map_eq_some_iff.1 h
      obtain ⟨hle, hx, hy⟩ := ofSurrogates_halves hhigh hlow
      rw [← hx] at hn
      rw [← hy] at hm
      have hrest : Raw rest := by
        cases hraw with
        | plain _ hbackslash _ _ => exact absurd rfl hbackslash
        | short hu _ => cases hu
        | hex _ _ _ _ hrest => exact hrest
      exact .pair hle hn hm (stands_of_decode hrest htext)
termination_by raw.length

/-- **What can stand between quotes is read as a text exactly when it stands for this text.** -/
theorem stands_iff {text raw : List Char} :
    Stands text raw ↔ Raw raw ∧ decode raw = some text :=
  ⟨fun h => ⟨h.raw, h.decode_eq⟩, fun h => stands_of_decode h.1 h.2⟩

end DirectoryLookup.Json
