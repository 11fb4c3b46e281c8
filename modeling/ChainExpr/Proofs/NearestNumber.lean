import ChainExpr.Number.Binary
import Mathlib

namespace ChainExpr.Number

/-- The quantity as a rational number. -/
def Dyadic.value (d : Dyadic) : ℚ := d.significand * 2 ^ d.exponent

def Fraction.value (x : Fraction) : ℚ := x.num / x.den

/-- What the finite number of a rank is, its sign apart. -/
def magnitude (rank : Nat) : ℚ := (Dyadic.ofRank rank).value

theorem magnitude_zero : magnitude 0 = 0 := by simp [magnitude, Dyadic.ofRank, Dyadic.value]

theorem magnitude_nonneg (rank : Nat) : 0 ≤ magnitude rank := by
  rw [magnitude, Dyadic.value]
  positivity

/-- A rank by its block and the place in it. The end of a block is the start of the next one. -/
theorem magnitude_block {block place : Nat} (hplace : place ≤ 2 * blockSize)
    (hblock : block = 0 ∨ blockSize ≤ place) :
    magnitude (block * blockSize + place) = place * 2 ^ ((block : ℤ) - 1074) := by
  have hsize : 0 < blockSize := by decide
  have hdiv : (block * blockSize + place) / blockSize = block + place / blockSize := by
    rw [Nat.mul_comm, Nat.mul_add_div hsize]
  rw [magnitude, Dyadic.ofRank, Dyadic.value, hdiv]
  rcases Nat.lt_or_ge place blockSize with hsmall | hlarge
  · obtain rfl : block = 0 := hblock.resolve_right (by omega)
    rw [Nat.div_eq_of_lt hsmall]
    simp
  · rcases Nat.lt_or_ge place (2 * blockSize) with hinside | hend
    · have hone : place / blockSize = 1 := by
        rw [Nat.div_eq_iff hsize]
        omega
      rw [hone, Nat.add_sub_cancel]
      dsimp only
      rw [Nat.add_sub_cancel_left]
    · obtain rfl : place = 2 * blockSize := Nat.le_antisymm hplace hend
      have htwo : 2 * blockSize / blockSize = 2 := Nat.mul_div_cancel 2 hsize
      have hrest : block * blockSize + 2 * blockSize - (block + 1) * blockSize = blockSize := by
        rw [← Nat.add_mul, ← Nat.sub_mul, show block + 2 - (block + 1) = 1 by omega, Nat.one_mul]
      have hexponent : ((block + 1 : ℕ) : ℤ) - 1074 = (block : ℤ) - 1074 + 1 := by omega
      rw [htwo]
      dsimp only
      rw [show block + 2 - 1 = block + 1 by omega, hrest, hexponent,
        zpow_add_one₀ (by norm_num : (2 : ℚ) ≠ 0)]
      push_cast
      ring

/-- A rank is a place in a block. Only the first block has places below a full one. -/
theorem exists_block (rank : Nat) : ∃ block place, rank = block * blockSize + place ∧
    place < 2 * blockSize ∧ (block = 0 ∨ blockSize ≤ place) := by
  refine ⟨rank / blockSize - 1, rank - (rank / blockSize - 1) * blockSize, ?_⟩
  have hsplit := Nat.div_add_mod rank blockSize
  have hrest := Nat.mod_lt rank (show 0 < blockSize by decide)
  rcases Nat.eq_zero_or_pos (rank / blockSize) with hzero | hpos
  · rw [hzero] at hsplit ⊢
    omega
  · obtain ⟨block, hblock⟩ := Nat.exists_eq_add_of_lt hpos
    rw [hblock] at hsplit ⊢
    simp only [Nat.zero_add, Nat.add_sub_cancel]
    rw [Nat.zero_add, Nat.mul_add, Nat.mul_comm, Nat.mul_one] at hsplit
    omega

/-- A number that is nearest to a quantity among the naturals, and even if another one is as near. -/
structure RoundsTo (q : ℚ) (n : Nat) : Prop where
  nearest : ∀ m : Nat, |q - n| ≤ |q - m|
  even : ∀ m : Nat, m ≠ n → |q - m| = |q - n| → n % 2 = 0

/-- Within half a unit there is at most one natural number, or two at exactly half a unit. -/
theorem RoundsTo.of_near {q : ℚ} {n : Nat} (hnear : |q - n| ≤ 1 / 2)
    (htie : |q - n| = 1 / 2 → n % 2 = 0) : RoundsTo q n := by
  have hfar (m : Nat) (hother : m ≠ n) : 1 / 2 ≤ |q - m| := by
    have hapart : (1 : ℚ) ≤ |(m : ℚ) - n| := by
      have hint : (1 : ℤ) ≤ |(m : ℤ) - n| := Int.one_le_abs (by omega)
      exact_mod_cast hint
    have htriangle : |(m : ℚ) - n| ≤ |q - m| + |q - n| := by
      rw [abs_sub_comm q m]
      exact abs_sub_le (m : ℚ) q n
    linarith
  constructor
  · intro m
    by_cases hother : m = n
    · rw [hother]
    · exact hnear.trans (hfar m hother)
  · intro m hother hequal
    exact htie (le_antisymm hnear (hequal ▸ hfar m hother))

section

variable {q : ℚ} {n m : Nat}

theorem RoundsTo.le (h : RoundsTo q n) (hq : q ≤ m) : n ≤ m := by
  have hnear := h.nearest m
  rw [abs_sub_comm q m, abs_of_nonneg (sub_nonneg.mpr hq), abs_le] at hnear
  exact_mod_cast (by linarith : (n : ℚ) ≤ m)

theorem RoundsTo.ge (h : RoundsTo q n) (hq : (m : ℚ) ≤ q) : m ≤ n := by
  have hnear := h.nearest m
  rw [abs_of_nonneg (sub_nonneg.mpr hq), abs_le] at hnear
  exact_mod_cast (by linarith : (m : ℚ) ≤ n)

end

theorem roundsTo_roundHalfEven {num den : Nat} (hden : 0 < den) :
    RoundsTo ((num : ℚ) / den) (roundHalfEven num den) := by
  have hpos : (0 : ℚ) < den := by exact_mod_cast hden
  obtain ⟨rest, hrest⟩ : ∃ rest : ℚ, rest = (num % den : ℕ) / den := ⟨_, rfl⟩
  have hsplit : (num : ℚ) / den = (num / den : ℕ) + rest := by
    have hcast : (num : ℚ) = den * (num / den : ℕ) + (num % den : ℕ) := by
      exact_mod_cast (Nat.div_add_mod num den).symm
    rw [hrest, div_eq_iff hpos.ne', hcast]
    field_simp
  have hbelow : rest ≤ 1 / 2 ↔ 2 * (num % den) ≤ den := by
    rw [hrest, div_le_div_iff₀ hpos two_pos, one_mul, mul_comm]
    exact_mod_cast Iff.rfl
  have habove : 1 / 2 ≤ rest ↔ den ≤ 2 * (num % den) := by
    rw [hrest, div_le_div_iff₀ two_pos hpos, one_mul, mul_comm _ (2 : ℚ)]
    exact_mod_cast Iff.rfl
  rw [hsplit, roundHalfEven]
  split
  · rename_i hdown
    have hself : |((num / den : ℕ) + rest : ℚ) - (num / den : ℕ)| = rest := by
      have hnonneg : 0 ≤ rest := hrest ▸ by positivity
      rw [add_sub_cancel_left, abs_of_nonneg hnonneg]
    refine .of_near ?_ fun h => ?_
    · rw [hself, hbelow]
      omega
    · have htie := habove.mp (hself.symm.trans h).ge
      omega
  · rename_i hup
    have hself : |((num / den : ℕ) + rest : ℚ) - (num / den + 1 : ℕ)| = 1 - rest := by
      have hless : rest < 1 := by
        rw [hrest, div_lt_one hpos]
        exact_mod_cast Nat.mod_lt num hden
      rw [Nat.cast_add_one, add_sub_add_left_eq_sub, abs_of_neg (by linarith), neg_sub]
    refine .of_near ?_ fun h => ?_
    · have hhalf := habove.mpr (by omega)
      rw [hself]
      linarith
    · rw [hself] at h
      have htie := hbelow.mp (by linarith)
      omega

namespace Fraction

variable {x : Fraction}

/-- The fraction in units of a power of two. -/
theorem scaled_value (x : Fraction) (exponent : ℤ) :
    ((x.num * Nat.pow 2 (-exponent).toNat : ℕ) : ℚ) / (x.den * Nat.pow 2 exponent.toNat : ℕ) =
      x.value / 2 ^ exponent := by
  rw [value]
  obtain ⟨n, rfl | rfl⟩ := exponent.eq_nat_or_neg
  · simp [Nat.pow_eq, div_div]
  · simp [Nat.pow_eq, zpow_neg, div_mul_eq_mul_div]

/-- The logarithms of numerator and denominator give that of the fraction but for one. -/
theorem guess_bounds (hnum : 0 < x.num) (hden : 0 < x.den) :
    (2 : ℚ) ^ ((x.num.log2 : ℤ) - x.den.log2 - 1) < x.value ∧
      x.value < 2 ^ ((x.num.log2 : ℤ) - x.den.log2 + 1) := by
  have hpos : (0 : ℚ) < x.den := by exact_mod_cast hden
  have hnumLow : (2 : ℚ) ^ x.num.log2 ≤ x.num := by exact_mod_cast Nat.log2_self_le hnum.ne'
  have hnumHigh : (x.num : ℚ) < 2 ^ (x.num.log2 + 1) := by exact_mod_cast Nat.lt_log2_self
  have hdenLow : (2 : ℚ) ^ x.den.log2 ≤ x.den := by exact_mod_cast Nat.log2_self_le hden.ne'
  have hdenHigh : (x.den : ℚ) < 2 ^ (x.den.log2 + 1) := by exact_mod_cast Nat.lt_log2_self
  rw [value]
  constructor
  · have hpower : (2 : ℚ) ^ ((x.num.log2 : ℤ) - x.den.log2 - 1) =
        2 ^ x.num.log2 / 2 ^ (x.den.log2 + 1) := by
      rw [sub_sub, zpow_sub₀ two_ne_zero, zpow_natCast]
      exact_mod_cast rfl
    rw [hpower]
    exact div_lt_div₀' hnumLow hdenHigh (by positivity) hpos
  · have hpower : (2 : ℚ) ^ ((x.num.log2 : ℤ) - x.den.log2 + 1) =
        2 ^ (x.num.log2 + 1) / 2 ^ x.den.log2 := by
      rw [sub_add_eq_add_sub, zpow_sub₀ two_ne_zero, zpow_natCast]
      exact_mod_cast rfl
    rw [hpower]
    exact div_lt_div₀ hnumHigh hdenLow (by positivity) (by positivity)

theorem log2_bounds (hnum : 0 < x.num) (hden : 0 < x.den) :
    (2 : ℚ) ^ x.log2 ≤ x.value ∧ x.value < 2 ^ (x.log2 + 1) := by
  obtain ⟨hlow, hhigh⟩ := guess_bounds hnum hden
  have hbelow : x.num * Nat.pow 2 (-((x.num.log2 : ℤ) - x.den.log2)).toNat <
      x.den * Nat.pow 2 ((x.num.log2 : ℤ) - x.den.log2).toNat ↔
        x.value < 2 ^ ((x.num.log2 : ℤ) - x.den.log2) := by
    have hscale : (0 : ℚ) < (x.den * Nat.pow 2 ((x.num.log2 : ℤ) - x.den.log2).toNat : ℕ) := by
      exact_mod_cast Nat.mul_pos hden (Nat.pow_pos Nat.two_pos)
    rw [← Nat.cast_lt (α := ℚ), ← div_lt_one hscale, scaled_value, div_lt_one (by positivity)]
  rw [log2]
  split
  · rename_i h
    exact ⟨hlow.le, by rw [sub_add_cancel]; exact hbelow.mp h⟩
  · rename_i h
    exact ⟨not_lt.mp (mt hbelow.mpr h), hhigh⟩

end Fraction

/-- A rank of a number that is nearest to a quantity, and even if another one is as near. -/
structure NearestRank (q : ℚ) (rank : Nat) : Prop where
  nearest : ∀ other, |q - magnitude rank| ≤ |q - magnitude other|
  even : ∀ other, magnitude other ≠ magnitude rank → |q - magnitude other| = |q - magnitude rank| →
    rank % 2 = 0

/-- The block that a quantity belongs to, and its place there in the units of the block. -/
structure Placed (q : ℚ) (block place : Nat) : Prop where
  rounded : RoundsTo (q / 2 ^ ((block : ℤ) - 1074)) place
  low : block = 0 ∨ (blockSize : ℚ) * 2 ^ ((block : ℤ) - 1074) ≤ q
  high : q ≤ (2 * blockSize : ℕ) * 2 ^ ((block : ℤ) - 1074)

namespace Placed

variable {q : ℚ} {block place : Nat}

theorem place_le (h : Placed q block place) : place ≤ 2 * blockSize :=
  h.rounded.le ((div_le_iff₀ (by positivity)).mpr h.high)

theorem le_place (h : Placed q block place) : block = 0 ∨ blockSize ≤ place :=
  h.low.imp_right fun hlow => h.rounded.ge ((le_div_iff₀ (by positivity)).mpr hlow)

/-- What a rank stands for is a whole number of the units of the block, or it stands for less than any
quantity of the block. -/
theorem multiple_or_less (block other : Nat) :
    (∃ m : Nat, magnitude other = m * 2 ^ ((block : ℤ) - 1074)) ∨
      (0 < block ∧ magnitude other < blockSize * 2 ^ ((block : ℤ) - 1074)) := by
  obtain ⟨block', place', rfl, hinside, hplaced⟩ := exists_block other
  have hmagnitude := magnitude_block hinside.le hplaced
  rcases Nat.lt_or_ge block' block with hearlier | hlater
  · refine .inr ⟨by omega, ?_⟩
    calc magnitude (block' * blockSize + place') = place' * 2 ^ ((block' : ℤ) - 1074) := hmagnitude
      _ < (2 * blockSize : ℕ) * 2 ^ ((block' : ℤ) - 1074) := by gcongr
      _ = blockSize * 2 ^ ((block' : ℤ) - 1074 + 1) := by
        rw [zpow_add_one₀ two_ne_zero]
        push_cast
        ring
      _ ≤ blockSize * 2 ^ ((block : ℤ) - 1074) :=
        mul_le_mul_of_nonneg_left (zpow_le_zpow_right₀ one_le_two (by omega)) (Nat.cast_nonneg _)
  · obtain ⟨more, rfl⟩ := Nat.exists_eq_add_of_le hlater
    refine .inl ⟨place' * 2 ^ more, ?_⟩
    rw [hmagnitude, show ((block + more : ℕ) : ℤ) - 1074 = more + ((block : ℤ) - 1074) by omega,
      zpow_add₀ two_ne_zero, zpow_natCast]
    push_cast
    ring

theorem nearestRank (h : Placed q block place) : NearestRank q (block * blockSize + place) := by
  have hmagnitude := magnitude_block h.place_le h.le_place
  have hrounded := h.rounded
  have hlow := h.low
  have hother := multiple_or_less block
  obtain ⟨unit, hunit⟩ : ∃ unit : ℚ, unit = 2 ^ ((block : ℤ) - 1074) := ⟨_, rfl⟩
  have hpos : 0 < unit := hunit ▸ by positivity
  rw [← hunit] at hmagnitude hrounded hlow
  simp only [← hunit] at hother
  have hscaled (m : Nat) : |q - m * unit| = |q / unit - m| * unit := by
    rw [← abs_of_pos hpos, ← abs_mul, abs_of_pos hpos, sub_mul, div_mul_cancel₀ q hpos.ne']
  have hnearest (m : Nat) : |q - place * unit| ≤ |q - m * unit| := by
    rw [hscaled, hscaled]
    exact mul_le_mul_of_nonneg_right (hrounded.nearest m) hpos.le
  -- What lies below the block is farther away than its start, which is one of the multiples.
  have hfar (other : Nat) (hless : 0 < block ∧ magnitude other < blockSize * unit) :
      |q - blockSize * unit| < |q - magnitude other| := by
    have hq := hlow.resolve_left hless.1.ne'
    rw [abs_of_nonneg (by linarith), abs_of_nonneg (by linarith)]
    linarith
  constructor
  · intro other
    rw [hmagnitude]
    rcases hother other with ⟨m, hm⟩ | hless
    · rw [hm]
      exact hnearest m
    · exact (hnearest blockSize).trans (hfar other hless).le
  · intro other hdifferent hequal
    rw [hmagnitude] at hdifferent hequal
    rcases hother other with ⟨m, hm⟩ | hless
    · rw [hm, hscaled, hscaled] at hequal
      have heven := hrounded.even m (fun h => hdifferent (h ▸ hm))
        (mul_right_cancel₀ hpos.ne' hequal)
      have hsize : blockSize % 2 = 0 := by decide
      rw [Nat.add_mod, Nat.mul_mod, hsize, heven, Nat.mul_zero]
    · exact absurd hequal ((hnearest blockSize).trans_lt (hfar other hless)).ne'

end Placed

theorem blockSize_eq_zpow : (blockSize : ℚ) = 2 ^ (52 : ℤ) := by norm_num [blockSize]

namespace Fraction

variable {x : Fraction}

theorem nearestRank_zero (h : x.num = 0) : x.nearestRank = 0 := by rw [nearestRank, if_pos h]

/-- The rank of a fraction is put together from a block and a place, if these do not lead beyond the
finite numbers. -/
theorem exists_placed (hnum : 0 < x.num) (hden : 0 < x.den) :
    ∃ block place, x.nearestRank = min infinityRank (block * blockSize + place) ∧
      Placed x.value block place := by
  obtain ⟨hlow, hhigh⟩ := log2_bounds hnum hden
  obtain ⟨block, hblock⟩ : ∃ block : Nat, max (x.log2 - 52) (-1074) = (block : ℤ) - 1074 :=
    ⟨(max (x.log2 - 52) (-1074) + 1074).toNat, by omega⟩
  refine ⟨block, roundHalfEven (x.num * Nat.pow 2 (-((block : ℤ) - 1074)).toNat)
    (x.den * Nat.pow 2 ((block : ℤ) - 1074).toNat), ?_, ?_, ?_, ?_⟩
  · rw [nearestRank, if_neg hnum.ne']
    simp only [hblock, show ((block : ℤ) - 1074 + 1074).toNat = block by omega]
  · rw [← scaled_value]
    exact roundsTo_roundHalfEven (Nat.mul_pos hden (Nat.pow_pos Nat.two_pos))
  · rcases Nat.eq_zero_or_pos block with hfirst | hlater
    · exact .inl hfirst
    · right
      rw [blockSize_eq_zpow, ← zpow_add₀ two_ne_zero, show (52 : ℤ) + (block - 1074) = x.log2 by omega]
      exact hlow
  · rw [Nat.cast_mul, blockSize_eq_zpow, Nat.cast_two, ← zpow_one_add₀ two_ne_zero,
      ← zpow_add₀ two_ne_zero]
    exact hhigh.le.trans (zpow_le_zpow_right₀ one_le_two (by omega))

/-- A fraction is rounded to the nearest of all numbers, if that is a finite one. -/
theorem nearestRank_nearest (hden : 0 < x.den) (hfinite : x.nearestRank < infinityRank) :
    NearestRank x.value x.nearestRank := by
  rcases Nat.eq_zero_or_pos x.num with hzero | hnum
  · rw [nearestRank_zero hzero, value, hzero, Nat.cast_zero, zero_div]
    exact ⟨by simp [magnitude_zero], by simp⟩
  · obtain ⟨block, place, hrank, hplaced⟩ := exists_placed hnum hden
    rw [hrank] at hfinite ⊢
    rw [min_eq_right (by omega)]
    exact hplaced.nearestRank

/-- Integers of 64 bits are far from the end of the finite numbers. -/
theorem nearestRank_integer {n : Nat} (h : n ≤ 2 ^ 64) : nearestRank ⟨n, 1⟩ < infinityRank := by
  rcases Nat.eq_zero_or_pos n with hzero | hnum
  · rw [nearestRank_zero hzero]
    decide
  · obtain ⟨block, place, hrank, hplaced⟩ := exists_placed (x := ⟨n, 1⟩) hnum Nat.one_pos
    have hblock : block ≤ 1086 := by
      rcases hplaced.low with hfirst | hlow
      · omega
      · have hvalue : value ⟨n, 1⟩ ≤ 2 ^ (64 : ℤ) := by
          rw [value, Nat.cast_one, div_one]
          exact_mod_cast h
        rw [blockSize_eq_zpow, ← zpow_add₀ two_ne_zero] at hlow
        have hexponent := (zpow_le_zpow_iff_right₀ one_lt_two).mp (hlow.trans hvalue)
        omega
    have hplace := hplaced.place_le
    have hproduct : block * blockSize ≤ 1086 * blockSize := Nat.mul_le_mul_right _ hblock
    rw [hrank]
    simp only [infinityRank, blockSize] at *
    omega

end Fraction

/-- Every pattern of bits that has the rank of a finite number is kept. -/
theorem toBits_ofBits {bits : UInt64} (hfinite : bits.toNat % signBit < infinityRank) :
    (Float.ofBits bits).toBits = bits := by
  have hexponent : bits.toNat / 2 ^ 52 % 2 ^ 11 ≠ 2047 := by
    simp only [signBit, infinityRank] at hfinite
    omega
  have hnumber : ¬@Float.Model.UnpackedFloat.isNaNBits .binary64 bits.toBitVec := by
    rw [Float.Model.UnpackedFloat.isNaNBits, decide_eq_true_iff]
    rintro ⟨hones, -⟩
    have hnat : (BitVec.extractLsb 62 52 bits.toBitVec).toNat = 2047 := congrArg BitVec.toNat hones
    rw [BitVec.extractLsb_toNat, Nat.shiftRight_eq_div_pow] at hnat
    exact hexponent hnat
  have hpack := @Float.Model.UnpackedFloat.pack_unpack .binary64 bits.toBitVec
  rw [if_neg hnumber] at hpack
  exact UInt64.toBitVec_inj.mp hpack

section

variable {negative : Bool} {r : Nat}

theorem toNat_ofRank (hfinite : r < infinityRank) :
    (ofRank negative r).toBits.toNat = if negative then signBit + r else r := by
  have hbits : (UInt64.ofNat (if negative then signBit + r else r)).toNat =
      if negative then signBit + r else r := by
    apply UInt64.toNat_ofNat_of_lt
    simp only [infinityRank, signBit, UInt64.size] at *
    split <;> omega
  rw [ofRank, toBits_ofBits, hbits]
  rw [hbits]
  cases negative
  · exact (Nat.mod_le r signBit).trans_lt hfinite
  · rw [if_pos rfl, Nat.add_mod_left]
    exact (Nat.mod_le r signBit).trans_lt hfinite

theorem rank_ofRank (hfinite : r < infinityRank) : rank (ofRank negative r) = r := by
  have hless : r < signBit := hfinite.trans (by decide)
  rw [rank, toNat_ofRank hfinite]
  cases negative
  · exact Nat.mod_eq_of_lt hless
  · rw [if_pos rfl, Nat.add_mod_left, Nat.mod_eq_of_lt hless]

theorem isNegative_ofRank (hfinite : r < infinityRank) : isNegative (ofRank negative r) = negative := by
  have hless : r < signBit := hfinite.trans (by decide)
  rw [isNegative, toNat_ofRank hfinite]
  cases negative
  · simpa using hless
  · simp

end

/-- What a finite number is, with its sign. -/
def value (x : Float) : ℚ := if isNegative x then -magnitude (rank x) else magnitude (rank x)

/-- A finite number to which no other is nearer to a quantity. If another one is as near, it is even: the
last bit of its significand, which is that of its rank, is not set. -/
structure IsNearest (q : ℚ) (x : Float) : Prop where
  finite : rank x < infinityRank
  nearest : ∀ y, rank y < infinityRank → |q - value x| ≤ |q - value y|
  even : ∀ y, rank y < infinityRank → value y ≠ value x → |q - value y| = |q - value x| →
    rank x % 2 = 0

theorem abs_value (x : Float) : |value x| = magnitude (rank x) := by
  rw [value]
  split
  · rw [abs_neg, abs_of_nonneg (magnitude_nonneg _)]
  · rw [abs_of_nonneg (magnitude_nonneg _)]

theorem beq_self {x : Float} (hfinite : rank x < infinityRank) : (x == x) = true := by
  rw [Float.beq_self_iff]
  rintro rfl
  exact absurd hfinite (by decide +kernel)

/-- A finite number is nearest to itself. -/
theorem isNearest_self {x : Float} (hfinite : rank x < infinityRank) : IsNearest (value x) x := by
  refine ⟨hfinite, fun y _ => by simp, fun y _ hdifferent hequal => ?_⟩
  rw [sub_self, abs_zero, abs_eq_zero, sub_eq_zero] at hequal
  exact absurd hequal.symm hdifferent

/-- The nearest magnitude with the sign of the quantity is nearest to it. -/
theorem IsNearest.of_rank {q : ℚ} {x : Float} (hfinite : rank x < infinityRank)
    (hsign : isNegative x = decide (q < 0)) (hnear : NearestRank |q| (rank x)) : IsNearest q x := by
  have hself : |q - value x| = |(|q| - magnitude (rank x))| := by
    rw [value, hsign]
    rcases lt_or_ge q 0 with hneg | hpos
    · rw [if_pos (by simpa using hneg), abs_of_neg hneg, ← abs_neg]
      congr 1
      ring
    · rw [if_neg (by simpa using hpos), abs_of_nonneg hpos]
  have hother (y : Float) : |(|q| - magnitude (rank y))| ≤ |q - value y| := by
    rw [← abs_value y]
    exact abs_abs_sub_abs_le q (value y)
  refine ⟨hfinite, fun y _ => ?_, fun y _ hdifferent hequal => ?_⟩
  · rw [hself]
    exact (hnear.nearest _).trans (hother y)
  · by_cases hsame : magnitude (rank y) = magnitude (rank x)
    · -- The other number is the opposite one, and as near as that only to zero, which is nearer.
      have hopposite : value y = -value x :=
        (abs_eq_abs.mp ((abs_value y).trans (hsame.trans (abs_value x).symm))).resolve_left hdifferent
      have hnonzero : value x ≠ 0 := by
        rintro hzero
        rw [hopposite, hzero, neg_zero] at hdifferent
        exact hdifferent rfl
      rw [hopposite, ← sq_eq_sq_iff_abs_eq_abs] at hequal
      have hproduct : q * value x = 0 := by linarith
      have hzero := hnear.nearest 0
      rw [(mul_eq_zero.mp hproduct).resolve_right hnonzero, ← abs_value x] at hzero
      simp [magnitude_zero, hnonzero] at hzero
    · refine hnear.even (rank y) hsame (le_antisymm ?_ (hnear.nearest _))
      exact (hother y).trans (hequal.trans hself).le

/-- An integer of 64 bits, of either sign, becomes the number nearest to it. -/
theorem ofInt_isNearest {n : Int} (hlow : -2 ^ 63 ≤ n) (hhigh : n < 2 ^ 64) :
    IsNearest n (ofInt n) := by
  have hsize : n.natAbs ≤ 2 ^ 64 := by omega
  have hfinite := Fraction.nearestRank_integer hsize
  have hrank : rank (ofInt n) = Fraction.nearestRank ⟨n.natAbs, 1⟩ := rank_ofRank hfinite
  apply IsNearest.of_rank
  · rw [hrank]
    exact hfinite
  · rw [ofInt, isNegative_ofRank hfinite]
    simp
  · rw [hrank]
    have hvalue : Fraction.value ⟨n.natAbs, 1⟩ = |(n : ℚ)| := by
      rw [Fraction.value, Nat.cast_one, div_one]
      simp
    rw [← hvalue]
    exact Fraction.nearestRank_nearest Nat.one_pos hfinite

end ChainExpr.Number
