import DirectoryLookup.Number.Shortest
import Mathlib.Tactic.Linarith
import Mathlib.Tactic.Ring

/-!
# Rounding to double precision

What rounding leaves has 53 significant bits: it is a multiple of the distance to its neighbours
(`isRounded_ofRatio`).

**Theorem (`ofRatio_of_basin`).** Every ratio in the basin of a rounded number is rounded to it.

*Summary of the proof.* A ratio in the basin has neighbours as far apart as the number has, and is
within half this distance. There is one exception: below a power of two neighbours are half as far
apart, and there the basin reaches half as far (`nearest_below_power`).

Whole numbers are rounded at a scale of their own (`roundWithin_ofNat`).
-/

namespace DirectoryLookup.Number

/-! ## Division to the nearest integer -/

/-- Multiples of `den` that are less than `den` apart are in the order of their factors. -/
theorem le_of_mul_lt_mul_add (den : Nat) {a b : Nat} (h : a * den < b * den + den) : a ≤ b := by
  rw [← Nat.succ_mul] at h
  exact Nat.le_of_lt_succ (Nat.lt_of_mul_lt_mul_right h)

/-- The nearest integer is at most a half away, and even if it is a half away. -/
theorem roundDiv_eq_iff {num den m : Nat} (hden : 0 < den) :
    roundDiv num den = m ↔ 2 * (m * den) ≤ 2 * num + den ∧ 2 * num ≤ 2 * (m * den) + den ∧
      (2 * (m * den) = 2 * num + den ∨ 2 * num = 2 * (m * den) + den → m % 2 = 0) := by
  have hdivision := Nat.div_add_mod num den
  have hr := Nat.mod_lt num hden
  unfold roundDiv
  dsimp only
  generalize num / den = q at *
  generalize num % den = r at *
  rw [Nat.mul_comm] at hdivision
  have hnext : (q + 1) * den = q * den + den := Nat.succ_mul q den
  constructor
  · intro h
    split at h
    · subst h
      omega
    split at h
    · subst h
      omega
    split at h <;> subst h <;> omega
  · rintro ⟨hlow, hhigh, htie⟩
    have hle : m ≤ q + 1 := le_of_mul_lt_mul_add den (by omega)
    have hge : q ≤ m := le_of_mul_lt_mul_add den (by omega)
    have hm : m = q ∨ m = q + 1 := by omega
    rcases hm with rfl | rfl <;> split_ifs <;> omega

theorem roundDiv_mul_right {k : Nat} (hk : 0 < k) {num den : Nat} (hden : 0 < den) :
    roundDiv (num * k) (den * k) = roundDiv num den := by
  obtain ⟨hlow, hhigh, htie⟩ := (roundDiv_eq_iff hden).1 (rfl : roundDiv num den = _)
  rw [roundDiv_eq_iff (Nat.mul_pos hden hk)]
  generalize roundDiv num den = m at *
  have hscale : 2 * (m * (den * k)) = 2 * (m * den) * k := by ring
  have hnum : 2 * (num * k) = 2 * num * k := by ring
  rw [hscale, hnum, ← Nat.add_mul, ← Nat.add_mul]
  refine ⟨Nat.mul_le_mul_right k hlow, Nat.mul_le_mul_right k hhigh, fun h => htie ?_⟩
  exact h.imp (Nat.eq_of_mul_eq_mul_right hk) (Nat.eq_of_mul_eq_mul_right hk)

theorem le_roundDiv {m num den : Nat} (hden : 0 < den) (h : m * den ≤ num) :
    m ≤ roundDiv num den := by
  obtain ⟨-, hhigh, -⟩ := (roundDiv_eq_iff hden).1 (rfl : roundDiv num den = _)
  apply le_of_mul_lt_mul_add den
  omega

namespace Double

/-! ## The distance between neighbours -/

theorem unitsPerOne_pos : 0 < unitsPerOne := by
  decide +kernel

theorem exists_unitsPerOne_eq : ∃ j, unitsPerOne = 2 ^ j :=
  ⟨1074, by decide +kernel⟩

theorem spacing_pos (units : Nat) : 0 < spacing units :=
  Nat.two_pow_pos _

theorem exists_spacing_eq (units : Nat) : ∃ k, spacing units = 2 ^ k :=
  ⟨_, rfl⟩

/-- Neighbours are as far apart as leaves 53 bits above their distance. -/
theorem spacing_eq_iff {units k : Nat} :
    spacing units = 2 ^ k ↔ units < 2 ^ 53 * 2 ^ k ∧ (k = 0 ∨ 2 ^ 52 * 2 ^ k ≤ units) := by
  have hpow : spacing units = 2 ^ (units.log2 - 52) := rfl
  rw [hpow, Nat.pow_right_inj (by decide), ← Nat.pow_add, ← Nat.pow_add]
  by_cases hzero : units = 0
  · subst hzero
    have : 0 < 2 ^ (53 + k) := Nat.two_pow_pos _
    have : 0 < 2 ^ (52 + k) := Nat.two_pow_pos _
    simp
    omega
  · rw [← Nat.log2_lt hzero, ← Nat.le_log2 hzero]
    omega

/-- The finite numbers that rounding leaves are multiples of the distance to their neighbours. -/
inductive IsRounded : Double → Prop
  | finite (negative : Bool) {units : Nat} (hdvd : spacing units ∣ units)
      (hbound : units < unitsBound) : IsRounded (.finite negative units)
  | infinite (negative : Bool) : IsRounded (.infinite negative)
  | nan : IsRounded .nan

/-- The number of units nearest to `scaled / den` units. -/
def nearest (scaled den : Nat) : Nat :=
  roundDiv scaled (den * spacing (scaled / den)) * spacing (scaled / den)

/-- A ratio is rounded to the nearest number of units, if that is in range. -/
theorem ofRatio_cases (negative : Bool) (num den : Nat) :
    (nearest (num * unitsPerOne) den < unitsBound ∧
      ofRatio negative num den = finite negative (nearest (num * unitsPerOne) den)) ∨
    (unitsBound ≤ nearest (num * unitsPerOne) den ∧
      ofRatio negative num den = infinite negative) := by
  unfold ofRatio nearest
  dsimp only
  generalize unitsBound = bound
  split
  · next h => exact .inl ⟨h, rfl⟩
  · next h => exact .inr ⟨Nat.not_lt.1 h, rfl⟩

variable {scaled den : Nat}

/-- A number with at most 53 bits above a power of two that is one of its bits is a multiple of
the distance to its neighbours. -/
theorem spacing_dvd_mul {m k : Nat} (hm : m ≤ 2 ^ 53) (hk : k = 0 ∨ 2 ^ 52 ≤ m) :
    spacing (m * 2 ^ k) ∣ m * 2 ^ k := by
  have hpos : 0 < 2 ^ k := Nat.two_pow_pos k
  rcases hm.lt_or_eq with hlt | rfl
  · have hsame : spacing (m * 2 ^ k) = 2 ^ k :=
      spacing_eq_iff.2 ⟨Nat.mul_lt_mul_of_pos_right hlt hpos,
        hk.imp_right fun h => Nat.mul_le_mul_right _ h⟩
    rw [hsame]
    exact Nat.dvd_mul_left _ _
  · have hdouble : spacing (2 ^ 53 * 2 ^ k) = 2 ^ (k + 1) := by
      refine spacing_eq_iff.2 ⟨?_, .inr (le_of_eq (by ring))⟩
      exact Nat.mul_lt_mul_of_pos_left (Nat.pow_lt_pow_right (by decide) (Nat.lt_succ_self k))
        (Nat.two_pow_pos 53)
    rw [hdouble]
    exact ⟨2 ^ 52, by ring⟩

/-- **Rounding leaves a multiple of the distance to the neighbours.** -/
theorem spacing_nearest_dvd (hden : 0 < den) :
    spacing (nearest scaled den) ∣ nearest scaled den := by
  obtain ⟨k, hk⟩ := exists_spacing_eq (scaled / den)
  obtain ⟨hhigh, hlow⟩ := spacing_eq_iff.1 hk
  have hstep : 0 < den * 2 ^ k := Nat.mul_pos hden (Nat.two_pow_pos k)
  rw [nearest, hk]
  obtain ⟨hleast, hmost, -⟩ := (roundDiv_eq_iff hstep).1 (rfl : roundDiv scaled (den * 2 ^ k) = _)
  generalize roundDiv scaled (den * 2 ^ k) = m at *
  refine spacing_dvd_mul ?_ (hlow.imp_right fun hlow => ?_)
  · have hscaled : scaled < 2 ^ 53 * (den * 2 ^ k) := by
      have := (Nat.div_lt_iff_lt_mul hden).1 hhigh
      linarith
    apply le_of_mul_lt_mul_add (den * 2 ^ k)
    omega
  · have hscaled : 2 ^ 52 * (den * 2 ^ k) ≤ scaled := by
      have := (Nat.le_div_iff_mul_le hden).1 hlow
      linarith
    apply le_of_mul_lt_mul_add (den * 2 ^ k)
    omega

theorem isRounded_ofRatio (negative : Bool) (num : Nat) (hden : 0 < den) :
    (ofRatio negative num den).IsRounded := by
  cases ofRatio_cases negative num den with
  | inl h =>
    rw [h.2]
    exact .finite negative (spacing_nearest_dvd hden) h.1
  | inr h =>
    rw [h.2]
    exact .infinite negative

theorem isRounded_zero (negative : Bool) : (finite negative 0).IsRounded :=
  .finite negative (Nat.dvd_zero _) (by decide +kernel)

/-- A decimal number becomes a rounded one. -/
theorem isRounded_toDouble (d : Decimal) : d.toDouble.IsRounded := by
  unfold Decimal.toDouble
  split
  · exact isRounded_zero _
  split <;> split
  · exact .infinite _
  · exact isRounded_ofRatio _ _ Nat.one_pos
  · exact isRounded_zero _
  · exact isRounded_ofRatio _ _ (Nat.pow_pos (by decide))

/-- **What is read from a text is rounded.** -/
theorem isRounded_of_ofText? {text : List Char} {x : Double} (h : ofText? text = some x) :
    x.IsRounded := by
  unfold ofText? at h
  dsimp only at h
  split at h
  · obtain rfl := Option.some.inj h
    exact .infinite _
  split at h
  · obtain rfl := Option.some.inj h
    exact .nan
  · obtain ⟨d, -, rfl⟩ := Option.map_eq_some_iff.1 h
    exact isRounded_toDouble d

/-! ## The basin of a number -/

/-- What lies within half the distance between the neighbours of a number, at a magnitude where
they are as far apart, is rounded to the number. -/
theorem nearest_eq_of_within {c k : Nat} (hden : 0 < den)
    (hsame : spacing (scaled / den) = 2 ^ k)
    (hlow : 2 * (c * (den * 2 ^ k)) ≤ 2 * scaled + den * 2 ^ k)
    (hhigh : 2 * scaled ≤ 2 * (c * (den * 2 ^ k)) + den * 2 ^ k)
    (htie : 2 * (c * (den * 2 ^ k)) = 2 * scaled + den * 2 ^ k ∨
      2 * scaled = 2 * (c * (den * 2 ^ k)) + den * 2 ^ k → c % 2 = 0) :
    nearest scaled den = c * 2 ^ k := by
  have hround : roundDiv scaled (den * 2 ^ k) = c :=
    (roundDiv_eq_iff (Nat.mul_pos hden (Nat.two_pow_pos k))).2 ⟨hlow, hhigh, htie⟩
  rw [nearest, hsame, hround]

/-- Below a power of two neighbours are half as far apart, and there a quarter of the distance
above it is within reach. -/
theorem nearest_below_power {k : Nat} (hden : 0 < den)
    (hlow : 4 * (2 ^ 52 * (den * 2 ^ (k + 1))) ≤ 4 * scaled + den * 2 ^ (k + 1))
    (hless : scaled < 2 ^ 52 * (den * 2 ^ (k + 1))) :
    nearest scaled den = 2 ^ 52 * 2 ^ (k + 1) := by
  have hhalf : den * 2 ^ (k + 1) = 2 * (den * 2 ^ k) := by ring
  have hpos : 0 < den * 2 ^ k := Nat.mul_pos hden (Nat.two_pow_pos k)
  have hsame : spacing (scaled / den) = 2 ^ k := by
    refine spacing_eq_iff.2 ⟨?_, .inr ?_⟩
    · rw [Nat.div_lt_iff_lt_mul hden]
      linarith
    · rw [Nat.le_div_iff_mul_le hden]
      linarith
  rw [nearest_eq_of_within (c := 2 ^ 53) hden hsame (by omega) (by omega) (fun _ => rfl)]
  ring

/-- A rounded number, its distance to the neighbours, and the bits above it. -/
theorem exists_eq_mul {units : Nat} (h : spacing units ∣ units) :
    ∃ c k, units = c * 2 ^ k ∧ spacing units = 2 ^ k ∧ c < 2 ^ 53 ∧ (k = 0 ∨ 2 ^ 52 ≤ c) := by
  obtain ⟨k, hk⟩ := exists_spacing_eq units
  obtain ⟨c, hc⟩ := h
  rw [hk, Nat.mul_comm] at hc
  obtain ⟨hhigh, hlow⟩ := spacing_eq_iff.1 hk
  rw [hc] at hhigh hlow
  exact ⟨c, k, hc, hk, Nat.lt_of_mul_lt_mul_right hhigh,
    hlow.imp_right fun h => Nat.le_of_mul_le_mul_right h (Nat.two_pow_pos k)⟩

/-- A basin reaches at most half the distance below its number. -/
theorem le_basin_low (units : Nat) : 4 * units ≤ (basin units).low + 2 * spacing units := by
  unfold basin
  dsimp only
  split <;> omega

/-- Below a power of two it reaches half as far. -/
theorem le_basin_low_of_power (k : Nat) :
    4 * (2 ^ 52 * 2 ^ (k + 1)) ≤ (basin (2 ^ 52 * 2 ^ (k + 1))).low + 2 ^ (k + 1) := by
  have hpower : (2 : Nat) ^ 52 * 2 ^ (k + 1) = 2 ^ (52 + (k + 1)) := (Nat.pow_add ..).symm
  have hspacing : spacing (2 ^ (52 + (k + 1))) = 2 ^ (k + 1) := by
    rw [spacing, Nat.log2_two_pow, Nat.add_sub_cancel_left]
    rfl
  have hfar : 1 < 2 ^ (k + 1) := Nat.one_lt_two_pow (Nat.succ_ne_zero k)
  rw [hpower, basin, hspacing, Nat.log2_two_pow, if_pos ⟨rfl, hfar⟩]
  dsimp only
  omega

/-- The bounds of a basin belong to it only if it is closed. -/
theorem Basin.bounds_of_holds {b : Basin} {scale n : Nat} (h : b.holds scale n = true) :
    b.low * scale ≤ n ∧ n ≤ b.high * scale ∧
      (b.low * scale = n ∨ n = b.high * scale → b.closed = true) := by
  unfold holds at h
  split at h <;> simp only [Bool.and_eq_true, decide_eq_true_eq] at h
  · next hclosed => exact ⟨h.1, h.2, fun _ => hclosed⟩
  · exact ⟨h.1.le, h.2.le, by omega⟩

/-- What is in the basin of a number is at most half the distance between neighbours away from it,
and the number is even if it is half the distance away. -/
theorem within_of_basin {c k : Nat} (hsame : spacing (c * 2 ^ k) = 2 ^ k)
    (h : (basin (c * 2 ^ k)).holds den (4 * scaled) = true) :
    2 * (c * (den * 2 ^ k)) ≤ 2 * scaled + den * 2 ^ k ∧
      2 * scaled ≤ 2 * (c * (den * 2 ^ k)) + den * 2 ^ k ∧
      (2 * (c * (den * 2 ^ k)) = 2 * scaled + den * 2 ^ k ∨
        2 * scaled = 2 * (c * (den * 2 ^ k)) + den * 2 ^ k → c % 2 = 0) := by
  obtain ⟨hlow, hhigh, hclosed⟩ := Basin.bounds_of_holds h
  have heven : (basin (c * 2 ^ k)).closed = true → c % 2 = 0 := by
    simp [basin, hsame, Nat.mul_div_cancel c (Nat.two_pow_pos k)]
  have hreach := Nat.mul_le_mul_right den (le_basin_low (c * 2 ^ k))
  have htop : (basin (c * 2 ^ k)).high = 4 * (c * 2 ^ k) + 2 * spacing (c * 2 ^ k) := rfl
  have hleast : (4 * (c * 2 ^ k)) * den = 4 * (c * (den * 2 ^ k)) := by ring
  have hmost : (4 * (c * 2 ^ k) + 2 * 2 ^ k) * den =
      4 * (c * (den * 2 ^ k)) + 2 * (den * 2 ^ k) := by ring
  have hdistance : ((basin (c * 2 ^ k)).low + 2 * 2 ^ k) * den =
      (basin (c * 2 ^ k)).low * den + 2 * (den * 2 ^ k) := by ring
  rw [htop, hsame, hmost] at hhigh hclosed
  rw [hsame, hdistance, hleast] at hreach
  refine ⟨by omega, by omega, fun htie => heven (hclosed ?_)⟩
  omega

/-- **Every ratio in the basin of a rounded number is rounded to it.** -/
theorem nearest_of_basin {units : Nat} (hunits : spacing units ∣ units) (hden : 0 < den)
    (h : (basin units).holds den (4 * scaled) = true) : nearest scaled den = units := by
  obtain ⟨c, k, rfl, hsame, hmost, hleast⟩ := exists_eq_mul hunits
  obtain ⟨hlow, hhigh, htie⟩ := within_of_basin hsame h
  have hpos : 0 < den * 2 ^ k := Nat.mul_pos hden (Nat.two_pow_pos k)
  by_cases hplace : k = 0 ∨ 2 ^ 52 * (den * 2 ^ k) ≤ scaled
  · refine nearest_eq_of_within hden (spacing_eq_iff.2 ⟨?_, hplace.imp_right fun hplace => ?_⟩)
      hlow hhigh htie
    · rw [Nat.div_lt_iff_lt_mul hden]
      have := Nat.mul_le_mul_right (den * 2 ^ k) hmost
      rw [Nat.succ_mul] at this
      linarith
    · rw [Nat.le_div_iff_mul_le hden]
      linarith
  -- the ratio lies below a power of two
  · obtain ⟨hk, hless⟩ := not_or.1 hplace
    obtain ⟨k, rfl⟩ := Nat.exists_eq_add_one_of_ne_zero hk
    have hc : c = 2 ^ 52 := by
      refine le_antisymm ?_ (hleast.resolve_left hk)
      apply le_of_mul_lt_mul_add (den * 2 ^ (k + 1))
      omega
    subst hc
    have hreach := Nat.mul_le_mul_right den (le_basin_low_of_power k)
    have hleast : (basin (2 ^ 52 * 2 ^ (k + 1))).low * den ≤ 4 * scaled :=
      (Basin.bounds_of_holds h).1
    refine nearest_below_power hden ?_ (Nat.not_le.1 hless)
    linarith

/-- **A rounded number is what the ratios in its basin are rounded to.** -/
theorem ofRatio_of_basin {negative : Bool} {units num : Nat}
    (h : IsRounded (.finite negative units)) (hden : 0 < den)
    (hbasin : (basin units).holds den (4 * (num * unitsPerOne)) = true) :
    ofRatio negative num den = finite negative units := by
  cases h with
  | finite _ hdvd hbound =>
    have hnearest := nearest_of_basin hdvd hden hbasin
    cases ofRatio_cases negative num den with
    | inl hfinite => rw [hfinite.2, hnearest]
    | inr hinfinite =>
      rw [hnearest] at hinfinite
      exact absurd hbound (Nat.not_lt.2 hinfinite.1)

/-! ## Whole numbers -/

theorem spacing_mul_two_pow {n : Nat} (h : 2 ^ 52 ≤ n) (j : Nat) :
    spacing (n * 2 ^ j) = spacing n * 2 ^ j := by
  obtain ⟨k, hk⟩ := exists_spacing_eq n
  obtain ⟨hhigh, hlow⟩ := spacing_eq_iff.1 hk
  have hbits : 2 ^ 52 * 2 ^ k ≤ n := by
    rcases hlow with rfl | hlow
    · simpa using h
    · exact hlow
  have hpower : (2 : Nat) ^ (k + j) = 2 ^ k * 2 ^ j := Nat.pow_add ..
  rw [hk, ← hpower]
  refine spacing_eq_iff.2 ⟨?_, .inr ?_⟩
  · rw [hpower, ← Nat.mul_assoc]
    exact Nat.mul_lt_mul_of_pos_right hhigh (Nat.two_pow_pos j)
  · rw [hpower, ← Nat.mul_assoc]
    exact Nat.mul_le_mul_right _ hbits

/-- A whole number of at least 53 bits is rounded as a number of units is. -/
theorem nearest_mul_unitsPerOne {n : Nat} (h : 2 ^ 52 ≤ n) :
    nearest (n * unitsPerOne) 1 = nearest n 1 * unitsPerOne := by
  have hspacing : spacing (n * unitsPerOne) = spacing n * unitsPerOne := by
    obtain ⟨j, hj⟩ := exists_unitsPerOne_eq
    rw [hj, spacing_mul_two_pow h]
  have hpos := unitsPerOne_pos
  rw [nearest, nearest, Nat.div_one, Nat.div_one, hspacing, Nat.one_mul, Nat.one_mul,
    roundDiv_mul_right hpos (spacing_pos n), Nat.mul_assoc]

theorem unitsBound_eq : unitsBound = Nat.pow 2 1024 * unitsPerOne := by
  decide +kernel

/-- A whole number of units in ones is that number of ones. -/
theorem roundWithin_finite_mul (bound n : Nat) :
    roundWithin bound (finite false (n * unitsPerOne)) = min bound n := by
  have hpos := unitsPerOne_pos
  have hdiv : (2 * (n * unitsPerOne) + unitsPerOne) / (2 * unitsPerOne) = n := by
    rw [Nat.div_eq_iff (by omega)]
    generalize unitsPerOne = one at *
    have : n * (2 * one) = 2 * (n * one) := by ring
    omega
  rw [roundWithin, hdiv]

/-- **A whole number of at least 53 bits becomes the nearest number of 53 bits**, as far as the
bound allows. -/
theorem roundWithin_ofNat {bound n : Nat} (hbound : bound ≤ Nat.pow 2 1024) (h : 2 ^ 52 ≤ n) :
    roundWithin bound (ofNat n) = min bound (nearest n 1) := by
  have hnearest := nearest_mul_unitsPerOne h
  rw [ofNat]
  cases ofRatio_cases false n 1 with
  | inl hfinite => rw [hfinite.2, hnearest, roundWithin_finite_mul]
  | inr hinfinite =>
    rw [hnearest, unitsBound_eq] at hinfinite
    have hge := Nat.le_of_mul_le_mul_right hinfinite.1 unitsPerOne_pos
    rw [hinfinite.2, min_eq_left (hbound.trans hge)]
    rfl

theorem nearest_of_spacing {n k : Nat} (h : spacing n = 2 ^ k) :
    nearest n 1 = roundDiv n (2 ^ k) * 2 ^ k := by
  rw [nearest, Nat.div_one, h, Nat.one_mul]

/-- Rounding a whole number does not take it below a number of few bits. -/
theorem le_nearest {n j : Nat} (h : 2 ^ 52 * 2 ^ j ≤ n) : 2 ^ 52 * 2 ^ j ≤ nearest n 1 := by
  obtain ⟨k, hk⟩ := exists_spacing_eq n
  obtain ⟨hhigh, hlow⟩ := spacing_eq_iff.1 hk
  have hjk : j ≤ k := by
    have hpower : 2 ^ (52 + j) < 2 ^ (53 + k) := by
      rw [Nat.pow_add, Nat.pow_add]
      exact h.trans_lt hhigh
    have := (Nat.pow_lt_pow_iff_right (by decide)).1 hpower
    omega
  have hbits : 2 ^ 52 * 2 ^ k ≤ n := by
    rcases hlow with rfl | hlow
    · obtain rfl := Nat.le_zero.1 hjk
      exact h
    · exact hlow
  rw [nearest_of_spacing hk]
  calc 2 ^ 52 * 2 ^ j
      ≤ 2 ^ 52 * 2 ^ k := Nat.mul_le_mul_left _ (Nat.pow_le_pow_right (by decide) hjk)
    _ ≤ roundDiv n (2 ^ k) * 2 ^ k :=
        Nat.mul_le_mul_right _ (le_roundDiv (Nat.two_pow_pos k) hbits)

end Double

end DirectoryLookup.Number
