import ChainExpr.Number.Decimal
import ChainExpr.Proofs.NearestNumber
import Mathlib

namespace ChainExpr.Number

theorem magnitude_strictMono : StrictMono magnitude := by
  refine strictMono_nat_of_lt_succ fun rank => ?_
  obtain ⟨block, place, rfl, hless, hblock⟩ := exists_block rank
  rw [magnitude_block hless.le hblock, Nat.add_assoc,
    magnitude_block (Nat.succ_le_of_lt hless) (hblock.imp_right Nat.le_succ_of_le)]
  gcongr
  exact Nat.lt_succ_self place

theorem magnitude_inj {r r' : Nat} : magnitude r = magnitude r' ↔ r = r' :=
  magnitude_strictMono.injective.eq_iff

/-- Nothing is nearer to a number than the number itself. -/
theorem NearestRank.eq_of_magnitude {r rank : Nat} (h : NearestRank (magnitude r) rank) : rank = r := by
  have hzero : |magnitude r - magnitude rank| ≤ 0 := by simpa using h.nearest r
  exact magnitude_inj.mp (sub_eq_zero.mp (abs_nonpos_iff.mp hzero)).symm

/-- A tie is decided by evenness, and of two neighbours only one is even. -/
theorem RoundsTo.unique {q : ℚ} {n m : Nat} (h : RoundsTo q n) (h' : RoundsTo q m) : n = m := by
  by_contra hne
  have hequal : |q - m| = |q - n| := le_antisymm (h'.nearest n) (h.nearest m)
  have heven := h.even m (Ne.symm hne) hequal
  have heven' := h'.even n hne hequal.symm
  -- between two even numbers there is an odd one that is nearer
  have hmiddle : q = (n + m) / 2 := by
    rcases abs_eq_abs.mp hequal with hsame | hopposite
    · exact absurd (by exact_mod_cast (sub_right_inj.mp hsame).symm) hne
    · linarith
  obtain ⟨k, hk⟩ : ∃ k : Nat, 2 * k = n + m := ⟨(n + m) / 2, by omega⟩
  have hcast : (n + m : ℚ) = 2 * k := by exact_mod_cast hk.symm
  have hexact : q = k := by rw [hmiddle, hcast]; ring
  have hnear := h.nearest k
  rw [hexact, sub_self, abs_zero, abs_nonpos_iff, sub_eq_zero] at hnear
  have hkn : k = n := by exact_mod_cast hnear
  omega

namespace Fraction

variable {x y : Fraction}

theorem value_eq_zero_iff (hden : 0 < x.den) : x.value = 0 ↔ x.num = 0 := by
  have hpos : (x.den : ℚ) ≠ 0 := by exact_mod_cast hden.ne'
  rw [value, div_eq_zero_iff, or_iff_left hpos, Nat.cast_eq_zero]

theorem log2_congr (hnum : 0 < x.num) (hden : 0 < x.den) (hnum' : 0 < y.num) (hden' : 0 < y.den)
    (h : x.value = y.value) : x.log2 = y.log2 := by
  obtain ⟨hlow, hhigh⟩ := log2_bounds hnum hden
  obtain ⟨hlow', hhigh'⟩ := log2_bounds hnum' hden'
  rw [h] at hlow hhigh
  have hle := (zpow_lt_zpow_iff_right₀ one_lt_two).mp (hlow.trans_lt hhigh')
  have hge := (zpow_lt_zpow_iff_right₀ one_lt_two).mp (hlow'.trans_lt hhigh)
  omega

/-- A fraction is rounded in the units of a power of two. -/
theorem roundsTo_scaled (x : Fraction) (hden : 0 < x.den) (e : ℤ) : RoundsTo (x.value / 2 ^ e)
    (roundHalfEven (x.num * Nat.pow 2 (-e).toNat) (x.den * Nat.pow 2 e.toNat)) := by
  rw [← scaled_value]
  exact roundsTo_roundHalfEven (Nat.mul_pos hden (Nat.pow_pos Nat.two_pos))

/-- Rounding sees nothing but the value. -/
theorem nearestRank_congr (hden : 0 < x.den) (hden' : 0 < y.den) (h : x.value = y.value) :
    x.nearestRank = y.nearestRank := by
  rcases Nat.eq_zero_or_pos x.num with hzero | hnum
  · have hzero' : y.num = 0 := by
      rwa [← value_eq_zero_iff hden', ← h, value_eq_zero_iff hden]
    rw [nearestRank_zero hzero, nearestRank_zero hzero']
  · have hnum' : 0 < y.num := by
      rw [Nat.pos_iff_ne_zero, ne_eq, ← value_eq_zero_iff hden', ← h, value_eq_zero_iff hden]
      exact hnum.ne'
    have hround (e : ℤ) : roundHalfEven (x.num * Nat.pow 2 (-e).toNat) (x.den * Nat.pow 2 e.toNat) =
        roundHalfEven (y.num * Nat.pow 2 (-e).toNat) (y.den * Nat.pow 2 e.toNat) :=
      (h ▸ x.roundsTo_scaled hden e).unique (y.roundsTo_scaled hden' e)
    rw [nearestRank, nearestRank, if_neg hnum.ne', if_neg hnum'.ne',
      log2_congr hnum hden hnum' hden' h]
    simp only [hround]

/-- A quantity that is a finite number is rounded to that number. -/
theorem nearestRank_of_value {r : Nat} (hden : 0 < x.den) (hfinite : r < infinityRank)
    (h : x.value = magnitude r) : x.nearestRank = r := by
  rcases Nat.eq_zero_or_pos x.num with hzero | hnum
  · rw [(value_eq_zero_iff hden).mpr hzero, ← magnitude_zero, magnitude_inj] at h
    rw [nearestRank_zero hzero, h]
  · obtain ⟨block, place, hrank, hplaced⟩ := exists_placed hnum hden
    have hsame := (h ▸ hplaced.nearestRank).eq_of_magnitude
    rw [hrank, hsame, min_eq_right hfinite.le]

/-- Quantities far beyond the largest number are rounded to infinity. -/
theorem nearestRank_of_large (hden : 0 < x.den) (h : 2 ^ (1025 : ℤ) ≤ x.value) :
    x.nearestRank = infinityRank := by
  have hnum : 0 < x.num := by
    rw [Nat.pos_iff_ne_zero, ne_eq, ← value_eq_zero_iff hden]
    exact ((by positivity : (0 : ℚ) < 2 ^ (1025 : ℤ)).trans_le h).ne'
  obtain ⟨block, place, hrank, hplaced⟩ := exists_placed hnum hden
  have hhigh := hplaced.high
  rw [Nat.cast_mul, blockSize_eq_zpow, Nat.cast_two, ← zpow_one_add₀ two_ne_zero,
    ← zpow_add₀ two_ne_zero] at hhigh
  have hblock := (zpow_le_zpow_iff_right₀ one_lt_two).mp (h.trans hhigh)
  have hplace := hplaced.le_place.resolve_left (by omega)
  have hproduct : 2046 * blockSize ≤ block * blockSize := Nat.mul_le_mul_right _ (by omega)
  rw [hrank]
  simp only [infinityRank, blockSize] at *
  omega

/-- Quantities below half of the smallest number are rounded to zero. -/
theorem nearestRank_of_small (hden : 0 < x.den) (h : x.value < 2 ^ (-1075 : ℤ)) : x.nearestRank = 0 := by
  rcases Nat.eq_zero_or_pos x.num with hzero | hnum
  · exact nearestRank_zero hzero
  obtain ⟨block, place, hrank, hplaced⟩ := exists_placed hnum hden
  obtain rfl : block = 0 := by
    refine hplaced.low.resolve_right fun hlow => ?_
    rw [blockSize_eq_zpow, ← zpow_add₀ two_ne_zero] at hlow
    have hexponent := (zpow_lt_zpow_iff_right₀ one_lt_two).mp (hlow.trans_lt h)
    omega
  have hunit : x.value / 2 ^ (((0 : ℕ) : ℤ) - 1074) < 1 / 2 := by
    rw [div_lt_iff₀ (by positivity)]
    refine h.trans_eq ?_
    rw [show (-1075 : ℤ) = ((0 : ℕ) : ℤ) - 1074 - 1 by norm_num, zpow_sub_one₀ two_ne_zero]
    ring
  have hnonneg : 0 ≤ x.value / 2 ^ (((0 : ℕ) : ℤ) - 1074) := by
    rw [value]
    positivity
  obtain rfl : place = 0 := by
    have hnear := hplaced.rounded.nearest 0
    generalize x.value / 2 ^ (((0 : ℕ) : ℤ) - 1074) = q at hunit hnonneg hnear
    rw [Nat.cast_zero, sub_zero, abs_of_nonneg hnonneg, abs_le] at hnear
    have hless : (place : ℚ) < 1 := by linarith
    exact Nat.lt_one_iff.mp (by exact_mod_cast hless)
  rw [hrank, Nat.zero_mul, Nat.add_zero, Nat.min_zero]

end Fraction

namespace Decimal

variable {d d' : Decimal}

/-- The quantity as a rational number. -/
def value (d : Decimal) : ℚ := d.coefficient * 10 ^ d.exponent

theorem toFraction_den_pos (d : Decimal) : 0 < d.toFraction.den := Nat.pow_pos (by decide)

theorem toFraction_value (d : Decimal) : d.toFraction.value = d.value := by
  obtain ⟨coefficient, exponent⟩ := d
  rw [toFraction, Fraction.value, value]
  obtain ⟨n, rfl | rfl⟩ := exponent.eq_nat_or_neg
  · simp [Nat.pow_eq]
  · simp [Nat.pow_eq, zpow_neg, div_eq_mul_inv]

theorem eight_pow_le_ten_pow (n : ℕ) : (2 : ℚ) ^ (3 * n : ℤ) ≤ 10 ^ (n : ℤ) := by
  rw [zpow_mul, zpow_natCast, zpow_natCast]
  gcongr
  norm_num

/-- The bounds beyond which no power is formed change nothing. -/
theorem nearestRank_eq (d : Decimal) : d.nearestRank = d.toFraction.nearestRank := by
  rw [nearestRank]
  split
  · rename_i hzero
    rw [Fraction.nearestRank_zero (by rw [toFraction, hzero, Nat.zero_mul])]
  · rename_i hnonzero
    have hone : (1 : ℚ) ≤ d.coefficient := by exact_mod_cast Nat.one_le_iff_ne_zero.mpr hnonzero
    split
    · rename_i hlarge
      refine (Fraction.nearestRank_of_large d.toFraction_den_pos ?_).symm
      rw [toFraction_value, value]
      calc (2 : ℚ) ^ (1025 : ℤ) ≤ 2 ^ (3 * 400 : ℤ) := zpow_le_zpow_right₀ one_le_two (by norm_num)
        _ ≤ 10 ^ (400 : ℤ) := eight_pow_le_ten_pow 400
        _ ≤ 10 ^ d.exponent := zpow_le_zpow_right₀ (by norm_num) hlarge.le
        _ ≤ d.coefficient * 10 ^ d.exponent := le_mul_of_one_le_left (by positivity) hone
    · split
      · rename_i hsmall
        refine (Fraction.nearestRank_of_small d.toFraction_den_pos ?_).symm
        rw [toFraction_value, value]
        have hcoefficient : (d.coefficient : ℚ) < 10 ^ (d.coefficient.log2 + 1) := by
          calc (d.coefficient : ℚ) < 2 ^ (d.coefficient.log2 + 1) := by
                exact_mod_cast Nat.lt_log2_self
            _ ≤ 10 ^ (d.coefficient.log2 + 1) := by gcongr; norm_num
        calc (d.coefficient : ℚ) * 10 ^ d.exponent
            < 10 ^ (d.coefficient.log2 + 1) * 10 ^ d.exponent := by gcongr
          _ = 10 ^ ((d.coefficient.log2 + 1 : ℕ) + d.exponent) := by
            rw [zpow_add₀ (by norm_num), zpow_natCast]
          _ ≤ 10 ^ (-400 : ℤ) := zpow_le_zpow_right₀ (by norm_num) (by push_cast; omega)
          _ = (10 ^ (400 : ℤ))⁻¹ := zpow_neg 10 400
          _ ≤ (2 ^ (3 * 400 : ℤ))⁻¹ := inv_anti₀ (by positivity) (eight_pow_le_ten_pow 400)
          _ = 2 ^ (-(3 * 400) : ℤ) := (zpow_neg 2 (3 * 400)).symm
          _ ≤ 2 ^ (-1075 : ℤ) := zpow_le_zpow_right₀ one_le_two (by norm_num)
      · rfl

theorem nearestRank_congr (h : d.value = d'.value) : d.nearestRank = d'.nearestRank := by
  rw [nearestRank_eq, nearestRank_eq]
  refine Fraction.nearestRank_congr d.toFraction_den_pos d'.toFraction_den_pos ?_
  rw [toFraction_value, toFraction_value, h]

theorem nearestRank_of_value {r : Nat} (hfinite : r < infinityRank) (h : d.value = magnitude r) :
    d.nearestRank = r := by
  rw [nearestRank_eq]
  exact Fraction.nearestRank_of_value d.toFraction_den_pos hfinite (d.toFraction_value.trans h)

theorem ofDyadic_value (d : Dyadic) : (ofDyadic d).value = d.value := by
  obtain ⟨significand, exponent⟩ := d
  rw [ofDyadic, Dyadic.value]
  split
  · rename_i hpos
    obtain ⟨n, rfl⟩ := Int.eq_ofNat_of_zero_le hpos
    simp [value, Nat.pow_eq]
  · rename_i hneg
    obtain ⟨n, rfl⟩ : ∃ n : ℕ, exponent = -(n : ℤ) := ⟨(-exponent).toNat, by dsimp only at hneg; omega⟩
    have hten : (10 : ℚ) ^ n = 2 ^ n * 5 ^ n := by rw [← mul_pow]; norm_num
    simp only [value, neg_neg, Int.toNat_natCast, Nat.pow_eq, Nat.cast_mul, Nat.cast_pow, Nat.cast_ofNat,
      zpow_neg, zpow_natCast, hten]
    field_simp

end Decimal

theorem neighbour?_nearestRank {r : Nat} {lower upper d : Decimal} {nearer : Bool}
    (h : neighbour? lower upper nearer (decide (lower.nearestRank = r))
      (decide (upper.nearestRank = r)) = some d) : d.nearestRank = r := by
  by_cases hlower : lower.nearestRank = r
  · by_cases hupper : upper.nearestRank = r
    · rw [decide_eq_true hlower, decide_eq_true hupper] at h
      cases nearer with
      | true => exact Option.some.inj h ▸ hupper
      | false => exact Option.some.inj h ▸ hlower
    · rw [decide_eq_true hlower, decide_eq_false hupper] at h
      exact Option.some.inj h ▸ hlower
  · by_cases hupper : upper.nearestRank = r
    · rw [decide_eq_false hlower, decide_eq_true hupper] at h
      exact Option.some.inj h ▸ hupper
    · rw [decide_eq_false hlower, decide_eq_false hupper] at h
      cases h

theorem shortest_nearestRank (tie : TieRule) {r : Nat} (hfinite : r < infinityRank) :
    (shortest tie r).nearestRank = r := by
  rw [shortest]
  cases hfound : (List.range 17).findSome? fun n => decimalOfDigits? tie r (n + 1) with
  | none => exact Decimal.nearestRank_of_value hfinite (Decimal.ofDyadic_value _)
  | some d =>
    obtain ⟨n, _, hdigits⟩ := List.exists_of_findSome?_eq_some hfound
    exact neighbour?_nearestRank hdigits

/-- Only zero is written without figures. -/
theorem coefficient_shortest_ne_zero {tie : TieRule} {r : Nat} (hfinite : r < infinityRank)
    (hnonzero : r ≠ 0) : (shortest tie r).coefficient ≠ 0 := by
  intro hzero
  have hreads := shortest_nearestRank tie hfinite
  rw [Decimal.nearestRank, if_pos hzero] at hreads
  exact hnonzero hreads.symm

end ChainExpr.Number
