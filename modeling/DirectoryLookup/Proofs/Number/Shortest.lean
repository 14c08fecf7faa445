import DirectoryLookup.Proofs.Number.Reading
import DirectoryLookup.Proofs.Number.Rounding

/-!
# The text of a double is read as the double

**Theorem (`ofText?_text`).** Every rounded number is read back from its text.

*Summary of the proof.* The text of a finite number other than zero is a number on a grid of powers
of ten that lies in the basin of the number (`holds_of_onGrid?`), so it is rounded to it
(`ofRatio_of_basin`). There is such a number: on the finest grid of the search the points are
closer together than the bounds of any basin (`onGrid?_ne_none`). Its digits in their places are
read as this number, with places behind the point or without (`ofText?_positional`).

A text without such places is an integer's, and then it is the text of this integer
(`text_eq_of_intOf?`). Only the zero below zero is no integer.
-/

namespace DirectoryLookup.Number.Double

variable {negative : Bool} {units n : Nat} {exponent : Int}

/-! ## Numbers on a grid -/

/-- The point of a grid that is taken is in the basin. -/
theorem holds_of_onGrid? (h : onGrid? units exponent = some n) :
    (basin units).holds (Nat.pow 10 (-exponent).toNat)
      (4 * (n * Nat.pow 10 exponent.toNat * unitsPerOne)) = true := by
  have hmesh (m : Nat) : 4 * (m * Nat.pow 10 exponent.toNat * unitsPerOne) =
      m * (4 * unitsPerOne * Nat.pow 10 exponent.toNat) := by ring
  rw [hmesh]
  unfold onGrid? at h
  dsimp only at h
  split at h
  · next hbelow habove =>
    split at h <;> obtain rfl := Option.some.inj h
    · exact hbelow
    · exact habove
  · next hbelow _ =>
    obtain rfl := Option.some.inj h
    exact hbelow
  · next _ habove =>
    obtain rfl := Option.some.inj h
    exact habove
  · cases h

theorem Basin.holds_of_lt {b : Basin} {scale n : Nat} (hlow : b.low * scale < n)
    (hhigh : n < b.high * scale) : b.holds scale n = true := by
  unfold holds
  split <;> simp only [Bool.and_eq_true, decide_eq_true_eq]
  · exact ⟨hlow.le, hhigh.le⟩
  · exact ⟨hlow, hhigh⟩

/-- The first point above a number is in its basin if the points are close together. -/
theorem holds_above {scale mesh : Nat} (hmesh : 0 < mesh) (hclose : mesh < 2 * scale) :
    (basin units).holds scale ((4 * units * scale / mesh + 1) * mesh) = true := by
  have hdivision := Nat.div_add_mod (4 * units * scale) mesh
  have hrest := Nat.mod_lt (4 * units * scale) hmesh
  have hlow : (basin units).low ≤ 4 * units := Nat.sub_le _ _
  have hhigh : 4 * units + 2 ≤ (basin units).high :=
    Nat.add_le_add_left (Nat.mul_le_mul_left 2 (spacing_pos units)) _
  have hbelow := Nat.mul_le_mul_right scale hlow
  have habove := Nat.mul_le_mul_right scale hhigh
  rw [Nat.add_mul] at habove
  rw [Nat.mul_comm mesh] at hdivision
  apply Basin.holds_of_lt
  · rw [Nat.succ_mul]
    omega
  · rw [Nat.succ_mul]
    omega

/-- A grid that is fine enough has a point in every basin. -/
theorem onGrid?_ne_none {e : Nat} (hclose : 4 * unitsPerOne < 2 * Nat.pow 10 e) :
    onGrid? units (-e) ≠ none := by
  have hscale : (- -(e : Int)).toNat = e := by omega
  have hmesh : 4 * unitsPerOne * Nat.pow 10 (-(e : Int)).toNat = 4 * unitsPerOne := by
    have hpower : Nat.pow 10 (-(e : Int)).toNat = 1 := by
      have hzero : (-(e : Int)).toNat = 0 := by omega
      rw [hzero]
    rw [hpower, Nat.mul_one]
  have hpos : 0 < 4 * unitsPerOne := Nat.mul_pos (by decide) unitsPerOne_pos
  unfold onGrid?
  rw [hscale, hmesh]
  dsimp only
  rw [holds_above hpos hclose]
  split
  · split <;> exact Option.some_ne_none _
  · exact Option.some_ne_none _
  · exact Option.some_ne_none _
  · next habove => cases habove

/-! ## The search -/

/-- The search takes a point of a grid that has one, and comes to no grid finer than needed. -/
theorem onGrid?_of_shortest? (h : shortest? units = some (n, exponent)) :
    onGrid? units exponent = some n ∧ -(Decimal.exponentBound : Int) < exponent := by
  obtain ⟨i, hi, hgrid⟩ := List.exists_of_findSome?_eq_some h
  obtain ⟨m, hm, hpair⟩ := Option.map_eq_some_iff.1 hgrid
  obtain ⟨rfl, rfl⟩ := Prod.mk.inj hpair
  refine ⟨hm, ?_⟩
  have := List.mem_range.1 hi
  omega

/-- **The search finds digits for every number.** -/
theorem exists_shortest? (units : Nat) : ∃ n exponent, shortest? units = some (n, exponent) := by
  -- the last grid of the search has a point in every basin
  have hlast : onGrid? units (-(399 : Nat)) ≠ none := onGrid?_ne_none (by decide +kernel)
  cases h : shortest? units with
  | some digits => exact ⟨digits.1, digits.2, rfl⟩
  | none =>
    have hgrid := List.findSome?_eq_none_iff.1 h
      ((digitsOf (units / unitsPerOne)).length + 399)
      (List.mem_range.2 (Nat.add_lt_add_left (by decide) _))
    have hexponent : ((digitsOf (units / unitsPerOne)).length : Int) -
        ((digitsOf (units / unitsPerOne)).length + 399 : Nat) = -(399 : Nat) := by omega
    rw [hexponent] at hgrid
    exact absurd (Option.map_eq_none_iff.1 hgrid) hlast

/-- No basin of a rounded number but that of zero has zero in it. -/
theorem ne_zero_of_holds {scale : Nat} (hunits : units ≠ 0) (hdvd : spacing units ∣ units)
    (hscale : 0 < scale) (h : (basin units).holds scale n = true) : n ≠ 0 := by
  intro hn
  obtain ⟨hlow, -⟩ := Basin.bounds_of_holds h
  have hreach := le_basin_low units
  have hspacing := Nat.le_of_dvd (Nat.pos_of_ne_zero hunits) hdvd
  have hpos : 0 < (basin units).low * scale := Nat.mul_pos (by omega) hscale
  omega

/-! ## Digits in their places -/

theorem positional_ofNat (e : Nat) : positional n (.ofNat e) = digitsOf (n * Nat.pow 10 e) :=
  rfl

/-- Digits with zeros in front, one more than there are places behind the point. -/
def padded (n e : Nat) : List Char :=
  List.replicate (e + 2 - (digitsOf n).length) '0' ++ digitsOf n

theorem positional_negSucc (e : Nat) :
    positional n (.negSucc e) = (padded n e).take ((padded n e).length - (e + 1)) ++
      '.' :: (padded n e).drop ((padded n e).length - (e + 1)) :=
  rfl

theorem lt_length_padded (n e : Nat) : e + 1 < (padded n e).length := by
  simp only [padded, List.length_append, List.length_replicate]
  omega

theorem isDigit_of_mem_padded {n e : Nat} {c : Char} (h : c ∈ padded n e) : c.isDigit = true := by
  rcases List.mem_append.1 h with h | h
  · obtain rfl := List.eq_of_mem_replicate h
    rfl
  · exact isDigit_of_mem_digitsOf h

theorem natOf_padded (n e : Nat) : natOf (padded n e) = n := by
  rw [padded, natOf_replicate_zero_append, natOf_digitsOf]

/-- **Digits in their places are read as the decimal number they write.** -/
theorem ofText?_positional (negative : Bool) (n : Nat) (exponent : Int) :
    Decimal.ofText? negative (positional n exponent) =
      some ⟨negative, n * Nat.pow 10 exponent.toNat, -((-exponent).toNat : Int)⟩ := by
  cases exponent with
  | ofNat e =>
    have hplaces : (-Int.ofNat e).toNat = 0 := Int.toNat_of_nonpos (by simp)
    rw [positional_ofNat, Decimal.ofText?_digits negative (natOf?_digitsOf _), hplaces]
    rfl
  | negSucc e =>
    have hlength := lt_length_padded n e
    have hne : (padded n e).take ((padded n e).length - (e + 1)) ≠ [] := by
      intro h
      have := congrArg List.length h
      simp at this
      omega
    rw [positional_negSucc, Decimal.ofText?_point negative hne
      (fun c hc => isDigit_of_mem_padded (List.mem_of_mem_take hc))
      (fun c hc => isDigit_of_mem_padded (List.mem_of_mem_drop hc)), List.take_append_drop,
      natOf_padded, List.length_drop]
    have hplaces : (padded n e).length - ((padded n e).length - (e + 1)) = e + 1 := by omega
    rw [hplaces]
    simp

/-- Digits in their places start with a digit. -/
theorem exists_positional_eq_cons (n : Nat) (exponent : Int) :
    ∃ c s, positional n exponent = c :: s ∧ c.isDigit = true := by
  cases exponent with
  | ofNat e =>
    rw [positional_ofNat]
    exact exists_digitsOf_eq_cons _
  | negSucc e =>
    have hlength := lt_length_padded n e
    obtain ⟨c, s, h⟩ := List.exists_cons_of_ne_nil
      (List.ne_nil_of_length_pos (Nat.zero_lt_of_lt hlength))
    have hc : c.isDigit = true := isDigit_of_mem_padded (h ▸ List.mem_cons_self)
    obtain ⟨k, hk⟩ : ∃ k, (padded n e).length - (e + 1) = k + 1 :=
      Nat.exists_eq_succ_of_ne_zero (by omega)
    rw [positional_negSucc, hk, h]
    exact ⟨c, _, rfl, hc⟩

/-- Digits in their places that are an integer are the digits of this integer. -/
theorem positional_of_natOf? {m : Nat} (h : natOf? (positional n exponent) = some m) :
    positional n exponent = digitsOf m := by
  cases exponent with
  | ofNat e =>
    rw [positional_ofNat, natOf?_digitsOf] at h
    rw [positional_ofNat, Option.some.inj h]
  | negSucc e =>
    obtain ⟨-, hdigits, -⟩ := natOf?_eq_some_iff.1 h
    rw [positional_negSucc] at hdigits
    have hpoint := hdigits '.' (by simp)
    cases hpoint

/-! ## Reading a text back -/

/-- A decimal number with places behind the point, within the bound, is rounded as a ratio. -/
theorem toDouble_of_le {places : Nat} (hn : n ≠ 0) (hplaces : places ≤ Decimal.exponentBound) :
    Decimal.toDouble ⟨negative, n, -(places : Int)⟩ = ofRatio negative n (Nat.pow 10 places) := by
  unfold Decimal.toDouble
  rw [if_neg hn]
  cases places with
  | zero =>
    show (if Decimal.exponentBound < 0 then _ else ofRatio negative (n * Nat.pow 10 0) 1) = _
    have hpower : Nat.pow 10 0 = 1 := rfl
    rw [if_neg (Nat.not_lt_zero _), hpower, Nat.mul_one]
  | succ k =>
    show (if _ < k then _ else ofRatio negative n (Nat.pow 10 (k + 1))) = _
    rw [if_neg (by omega)]

/-- The digits of a magnitude are read as the number of which it is the magnitude. -/
theorem toDouble_of_shortest? (hx : IsRounded (finite negative units)) (hunits : units ≠ 0)
    (h : shortest? units = some (n, exponent)) :
    Decimal.toDouble ⟨negative, n * Nat.pow 10 exponent.toNat, -((-exponent).toNat : Int)⟩ =
      finite negative units := by
  obtain ⟨hgrid, hexponent⟩ := onGrid?_of_shortest? h
  have hholds := holds_of_onGrid? hgrid
  have hscale : 0 < Nat.pow 10 (-exponent).toNat := Nat.pow_pos (by decide)
  have hdvd : spacing units ∣ units := by
    cases hx with
    | finite _ hdvd _ => exact hdvd
  have hproduct := ne_zero_of_holds hunits hdvd hscale hholds
  have hdigits : n * Nat.pow 10 exponent.toNat ≠ 0 := fun hzero =>
    hproduct (by rw [hzero, Nat.zero_mul, Nat.mul_zero])
  rw [toDouble_of_le hdigits (by omega)]
  exact ofRatio_of_basin hx hscale hholds

/-- The text of a magnitude is the digits that the search finds, in their places. -/
theorem exists_magnitudeText_eq (units : Nat) :
    ∃ n exponent, shortest? units = some (n, exponent) ∧
      magnitudeText units = positional n exponent := by
  obtain ⟨n, exponent, h⟩ := exists_shortest? units
  exact ⟨n, exponent, h, by rw [magnitudeText, h]⟩

/-- The text of a magnitude starts with a digit. -/
theorem exists_magnitudeText_eq_cons (units : Nat) :
    ∃ c s, magnitudeText units = c :: s ∧ c.isDigit = true := by
  obtain ⟨n, exponent, -, h⟩ := exists_magnitudeText_eq units
  rw [h]
  exact exists_positional_eq_cons n exponent

/-- **The text of a magnitude is read as the number, with either sign in front.** -/
theorem ofText?_magnitudeText (hx : IsRounded (finite negative units)) :
    ofText? ((if negative then ['-'] else []) ++ magnitudeText units) =
      some (finite negative units) := by
  by_cases hunits : units = 0
  · subst hunits
    cases negative <;> decide +kernel
  · obtain ⟨n, exponent, h, htext⟩ := exists_magnitudeText_eq units
    obtain ⟨c, s, hcons, hc⟩ := exists_positional_eq_cons n exponent
    rw [htext, hcons, ofText?_sign_append negative hc, ← hcons, ofText?_positional,
      Option.map_some, toDouble_of_shortest? hx hunits h]

/-- **A rounded number is read back from its text.** -/
theorem ofText?_text {x : Double} (h : x.IsRounded) : ofText? x.text = some x := by
  cases x with
  | finite negative units => exact ofText?_magnitudeText h
  | infinite negative => cases negative <;> decide +kernel
  | nan => decide +kernel

/-- **A text that is an integer is the text of the integer**, but for the zero below zero. -/
theorem text_eq_of_intOf? {x : Double} (hx : x.IsRounded) (hzero : x ≠ finite true 0) {n : Int}
    (h : intOf? x.text = some n) : x.text = (toString n).toList := by
  cases x with
  | infinite negative => cases negative <;> cases h
  | nan => cases h
  | finite negative units =>
    obtain ⟨k, exponent, -, htext⟩ := exists_magnitudeText_eq units
    obtain ⟨c, s, hcons, hc⟩ := exists_magnitudeText_eq_cons units
    have hsign : unsign (text (finite negative units)) = (negative, magnitudeText units) := by
      rw [text, hcons, unsign_sign_append negative hc]
    rw [intOf?_eq, hsign] at h
    obtain ⟨m, hm, rfl⟩ := Option.map_eq_some_iff.1 h
    have hdigits : magnitudeText units = digitsOf m := by
      rw [htext] at hm ⊢
      exact positional_of_natOf? hm
    rw [toList_toString]
    cases negative with
    | false => simp [text, hdigits]
    | true =>
      have hm : m ≠ 0 := by
        rintro rfl
        have hread := ofText?_text hx
        rw [text, hdigits] at hread
        exact hzero (Option.some.inj (hread.symm.trans (by decide +kernel)))
      simp [text, hdigits, Nat.pos_of_ne_zero hm]

end DirectoryLookup.Number.Double
