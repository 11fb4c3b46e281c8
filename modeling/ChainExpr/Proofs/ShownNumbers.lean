import ChainExpr.Types.Cast
import ChainExpr.Types.Standard
import ChainExpr.Proofs.PlainNotation
import Mathlib

namespace ChainExpr.Number

theorem Dyadic.toFraction_value (d : Dyadic) : d.toFraction.value = d.value := by
  obtain ⟨significand, exponent⟩ := d
  rw [toFraction, Fraction.value, value]
  obtain ⟨n, rfl | rfl⟩ := exponent.eq_nat_or_neg
  · simp [Nat.pow_eq]
  · simp [Nat.pow_eq, zpow_neg, div_eq_mul_inv]

section Integers

variable {x : Float} {n : Int}

/-- A number that is an integer is finite and has that value. -/
theorem value_of_integer? (h : integer? x = some n) : rank x < infinityRank ∧ value x = n := by
  rw [integer?] at h
  split at h
  case isFalse => cases h
  case isTrue hfinite =>
    refine ⟨hfinite, ?_⟩
    obtain ⟨d, hd⟩ : ∃ d, d = Dyadic.ofRank (rank x) := ⟨_, rfl⟩
    rw [← hd] at h
    dsimp only at h
    split at h
    case isFalse => cases h
    case isTrue hdivides =>
      have hden : (d.toFraction.den : ℚ) ≠ 0 := by
        exact_mod_cast (Nat.pow_pos (n := (-d.exponent).toNat) Nat.two_pos).ne'
      have hquotient : magnitude (rank x) = ((d.toFraction.num / d.toFraction.den : ℕ) : ℚ) := by
        rw [Nat.cast_div (Nat.dvd_of_mod_eq_zero hdivides) hden, magnitude, ← hd,
          ← d.toFraction_value, Fraction.value]
      generalize d.toFraction.num / d.toFraction.den = quotient at hquotient h
      rw [Option.some.injEq] at h
      rw [value, ← h, hquotient]
      split <;> simp

theorem integerChars_eq (n : Int) : integerChars n =
    if decide (n < 0) then '-' :: Nat.toDigits 10 n.natAbs else Nat.toDigits 10 n.natAbs := by
  simp only [integerChars, decide_eq_true_eq]

/-- The integer is read as the number, whatever its size; zero has no sign. -/
theorem ofChars?_integerChars (h : integer? x = some n) :
    ofChars? (integerChars n) = some (ofRank (decide (n < 0)) (rank x)) := by
  obtain ⟨hfinite, hvalue⟩ := value_of_integer? h
  have hdigits : ∀ c ∈ Nat.toDigits 10 n.natAbs, c.isDigit = true := fun c hc =>
    Nat.isDigit_of_mem_toDigits (by decide) (by decide) hc
  obtain ⟨c, cs, hcs⟩ := List.exists_cons_of_ne_nil (Nat.toDigits_ne_nil (n := n.natAbs) (b := 10))
  have hread := ofChars?_whole hdigits Nat.toDigits_ne_nil
  have hrank : Decimal.nearestRank ⟨Nat.ofDigitChars 10 (Nat.toDigits 10 n.natAbs) 0, 0⟩ = rank x := by
    refine Decimal.nearestRank_of_value hfinite ?_
    rw [Decimal.value, Nat.ofDigitChars_ten_toDigits, zpow_zero, mul_one, ← abs_value x, hvalue]
    simp
  have hc : c.isDigit = true := hdigits c (hcs ▸ List.mem_cons_self)
  rw [integerChars_eq, hcs, ofChars?_signed hc, ← hcs, hread, Option.map_some, hrank]

end Integers

/-- The characters that shown numbers are made of. -/
def IsPlain (c : Char) : Prop := c.isDigit = true ∨ c ∈ ['-', '.', 'i', 'n', 'f', 'N', 'a']

theorem IsPlain.not_blank {c : Char} (h : IsPlain c) : Text.isBlank c = false := by
  rcases h with hdigit | hother
  · obtain ⟨hzero, hnine⟩ := Char.isDigit_iff_toNat.mp hdigit
    have hlow : 48 ≤ c.toNat := hzero
    have hhigh : c.toNat ≤ 57 := hnine
    simp only [Text.isBlank, Bool.or_eq_false_iff, Bool.and_eq_false_iff, decide_eq_false_iff_not,
      beq_eq_false_iff_ne]
    omega
  · fin_cases hother <;> rfl

theorem isPlain_unsigned (x : Float) : ∀ c ∈ unsigned x, IsPlain c := by
  intro c hc
  rw [unsigned] at hc
  split at hc
  case isTrue => exact .inl (List.mem_singleton.mp hc ▸ rfl)
  case isFalse =>
    have hdigits := (shortest .away (rank x)).figures_digits
    generalize (shortest .away (rank x)).figures = f at hc hdigits
    have hwhere : c ∈ f.digits ∨ c = '0' ∨ c = '.' := by
      rw [Figures.positional] at hc
      split at hc
      · simp only [List.mem_cons, List.mem_append, List.mem_replicate] at hc
        tauto
      · split at hc
        · simp only [List.append_nil, List.mem_append, List.mem_replicate] at hc
          tauto
        · rcases List.mem_append.mp hc with htake | hrest
          · exact .inl (List.mem_of_mem_take htake)
          · rcases List.mem_cons.mp hrest with hpoint | hdrop
            · exact .inr (.inr hpoint)
            · exact .inl (List.mem_of_mem_drop hdrop)
    rcases hwhere with hdigit | rfl | rfl
    · exact .inl (hdigits c hdigit)
    · exact .inl rfl
    · exact .inr (by simp)

theorem isPlain_signed {negative : Bool} {cs : List Char} (h : ∀ c ∈ cs, IsPlain c) :
    ∀ c ∈ (if negative then '-' :: cs else cs), IsPlain c := by
  cases negative with
  | true => exact List.forall_mem_cons.mpr ⟨.inr (by simp), h⟩
  | false => exact h

theorem isPlain_shownChars (x : Float) : ∀ c ∈ shownChars x, IsPlain c := by
  have hplain : ∀ c ∈ plainChars x, IsPlain c := by
    rw [plainChars]
    split
    · rw [shownStyle_chars]
      exact isPlain_signed (isPlain_unsigned x)
    · split
      · split <;> exact fun c hc => .inr (by fin_cases hc <;> simp)
      · exact fun c hc => .inr (by fin_cases hc <;> simp)
  rw [shownChars]
  split
  · split
    · rw [integerChars_eq]
      exact isPlain_signed fun c hc => .inl (Nat.isDigit_of_mem_toDigits (by decide) (by decide) hc)
    · exact hplain
  · exact hplain

end ChainExpr.Number

namespace ChainExpr

theorem Text.trim_eq_self {cs : List Char} (h : ∀ c ∈ cs, isBlank c = false) : trim cs = cs := by
  have hkeeps (cs : List Char) (h : ∀ c ∈ cs, isBlank c = false) : cs.dropWhile isBlank = cs := by
    cases cs with
    | nil => rfl
    | cons c rest => rw [List.dropWhile_cons, h c List.mem_cons_self, if_neg Bool.false_ne_true]
  rw [trim, hkeeps cs h, hkeeps, List.reverse_reverse]
  exact fun c hc => h c (List.mem_reverse.mp hc)

open Conversion in
theorem TypeRegistry.standard_string_to_number {s : String} {y : Float} (h : textNumber? s = some y) :
    (standard.cast (.string s) [.number]).2 = .ok (.number y) := by
  have hconversions : standard.conversions .string .number = [(.target, stringToNumber)] := rfl
  have hconvert : stringToNumber.convert (.string s) = .ok (.number y) := by
    simp only [stringToNumber, Conversion.standard, h]
  rw [cast, if_neg (by simp), search, if_neg (by simp [Value.type])]
  simp only [Value.type, hconversions, tryConversions, hconvert]

namespace Number

/-- What a shown number is read as: itself, but for the sign of zero and the bits of a NaN. -/
def reread (x : Float) : Float :=
  if x.isNaN then notANumber else if rank x = 0 then 0 else x

theorem integer?_zero {x : Float} (h : rank x = 0) : integer? x = some 0 := by
  have hnum : (Dyadic.ofRank 0).toFraction.num = 0 := Nat.zero_mul _
  rw [integer?, h, if_pos (by decide)]
  simp only [hnum, Nat.zero_mod, Nat.zero_div, ↓reduceIte, Nat.cast_zero, neg_zero, ite_self]

/-- The sign of an integer is that of the number, unless both are zero. -/
theorem sign_of_integer? {x : Float} {n : Int} (h : integer? x = some n) (hnonzero : rank x ≠ 0) :
    decide (n < 0) = isNegative x := by
  obtain ⟨_, hvalue⟩ := value_of_integer? h
  have hpos : 0 < magnitude (rank x) := by
    rw [← magnitude_zero]
    exact magnitude_strictMono (Nat.pos_of_ne_zero hnonzero)
  rw [value] at hvalue
  cases hsign : isNegative x with
  | true =>
    rw [hsign, if_pos rfl] at hvalue
    have hneg : (n : ℚ) < 0 := by linarith
    exact decide_eq_true (by exact_mod_cast hneg)
  | false =>
    rw [hsign, if_neg Bool.false_ne_true] at hvalue
    have hnonneg : 0 ≤ (n : ℚ) := by linarith
    exact decide_eq_false (not_lt.mpr (by exact_mod_cast hnonneg))

theorem value_ofRank_integer? {x : Float} {n : Int} (h : integer? x = some n) :
    value (ofRank (decide (n < 0)) (rank x)) = n := by
  obtain ⟨hfinite, hvalue⟩ := value_of_integer? h
  rw [value, isNegative_ofRank hfinite, rank_ofRank hfinite, ← abs_value x, hvalue]
  rcases lt_or_ge n 0 with hneg | hpos
  · rw [decide_eq_true hneg, if_pos rfl, abs_of_neg (by exact_mod_cast hneg), neg_neg]
  · rw [decide_eq_false (not_lt.mpr hpos), if_neg Bool.false_ne_true,
      abs_of_nonneg (by exact_mod_cast hpos)]

theorem beq_ofRank_integer? {x : Float} {n : Int} (h : integer? x = some n) :
    (ofRank (decide (n < 0)) (rank x) == x) = true := by
  by_cases hzero : rank x = 0
  · obtain rfl : 0 = n := Option.some.inj ((integer?_zero hzero).symm.trans h)
    have hx := ofRank_rank x
    rw [hzero] at hx ⊢
    rw [← hx]
    cases isNegative x <;> decide +kernel
  · rw [sign_of_integer? h hzero, ofRank_rank]
    exact beq_self (value_of_integer? h).1

/-- Whichever way a number is shown, it is read as that number. -/
theorem ofChars?_shownChars (x : Float) : ofChars? (shownChars x) = some (reread x) := by
  have hplain (hnonzero : rank x ≠ 0) : ofChars? (plainChars x) = some (reread x) := by
    rw [ofChars?_plainChars, reread, if_neg hnonzero]
  rw [shownChars]
  cases hinteger : integer? x with
  | none =>
    refine hplain fun hzero => ?_
    rw [integer?_zero hzero] at hinteger
    cases hinteger
  | some n =>
    dsimp only
    split
    case isFalse hlarge =>
      refine hplain fun hzero => ?_
      rw [integer?_zero hzero] at hinteger
      cases hinteger
      exact hlarge (by decide)
    case isTrue =>
      have hfinite := (value_of_integer? hinteger).1
      have hnumber : ¬x.isNaN = true := by
        rw [isNaN_iff]
        omega
      rw [ofChars?_integerChars hinteger, reread, if_neg hnumber]
      split
      case isTrue hzero =>
        obtain rfl : 0 = n := Option.some.inj ((integer?_zero hzero).symm.trans hinteger)
        rw [hzero]
        rfl
      case isFalse hnonzero => rw [sign_of_integer? hinteger hnonzero, ofRank_rank]

theorem toBits_reread {x : Float} (h : x.isNaN = false) :
    (reread x).toBits = if x.toBits = 0x8000000000000000 then 0 else x.toBits := by
  have hbits := x.toBits.toNat_lt
  have hzero : rank x = 0 ↔ x.toBits = 0 ∨ x.toBits = 0x8000000000000000 := by
    rw [← UInt64.toNat_inj, ← UInt64.toNat_inj, rank, signBit]
    change _ ↔ _ = 0 ∨ _ = 9223372036854775808
    omega
  rw [reread, h, if_neg Bool.false_ne_true]
  split
  case isTrue hrank =>
    have hblank : (0 : Float).toBits = 0 := by decide +kernel
    rcases hzero.mp hrank with hplus | hminus
    · rw [hplus, hblank]
      rfl
    · rw [if_pos hminus, hblank]
  case isFalse hrank => rw [if_neg fun hminus => hrank (hzero.mpr (.inr hminus))]

/-- Blanks are no part of a shown number, and it is never empty. -/
theorem textNumber?_shown (x : Float) : Conversion.textNumber? (shown x) = some (reread x) := by
  have htrim : Text.trim (shown x).toList = shownChars x := by
    rw [shown, String.toList_ofList]
    exact Text.trim_eq_self fun c hc => (isPlain_shownChars x c hc).not_blank
  have hread := ofChars?_shownChars x
  rw [Conversion.textNumber?, htrim]
  split
  case h_1 hnil =>
    have hempty : ofChars? [] = none := rfl
    rw [hnil, hempty] at hread
    cases hread
  case h_2 => exact hread

end Number

/-- Numbers survive being shown as strings. Each one is read again bit for bit, only that negative zero
comes back without its sign and a NaN as some NaN. Where a number is an integer, the digits of the integer
and plain notation say the same number, on either side of the limit between them and for either sign. -/
theorem TypeRegistry.standard_number_survives (x : Float) :
    ∃ y, (standard.cast (.number x) [.string]).2 = .ok (.string (Number.shown x)) ∧
      (standard.cast (.string (Number.shown x)) [.number]).2 = .ok (.number y) ∧
      (x.isNaN = true → y.isNaN = true) ∧
      (x.isNaN = false → y.toBits = if x.toBits = 0x8000000000000000 then 0 else x.toBits) ∧
      ∀ n, Number.integer? x = some n →
        ∃ a, Number.ofChars? (Number.integerChars n) = some a ∧
          Number.ofChars? (Number.plainChars x) = some x ∧
          Number.value a = n ∧ Number.value x = n ∧ (a == x) = true := by
  refine ⟨Number.reread x, rfl, standard_string_to_number (Number.textNumber?_shown x), fun hnan => ?_,
    Number.toBits_reread, fun n hinteger => ?_⟩
  · rw [Number.reread, if_pos hnan]
    rfl
  · obtain ⟨hfinite, hvalue⟩ := Number.value_of_integer? hinteger
    have hnumber : ¬x.isNaN = true := by
      rw [Number.isNaN_iff]
      omega
    refine ⟨_, Number.ofChars?_integerChars hinteger, ?_, ?_, hvalue, ?_⟩
    · rw [Number.ofChars?_plainChars, if_neg hnumber]
    · exact Number.value_ofRank_integer? hinteger
    · exact Number.beq_ofRank_integer? hinteger

end ChainExpr
