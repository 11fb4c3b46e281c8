import ChainExpr.Number.Text
import ChainExpr.Proofs.RankOfValue
import Mathlib

namespace ChainExpr.Number

section Digits

variable {cs whole fraction : List Char}

theorem takeWhile_digits (h : ∀ c ∈ cs, c.isDigit = true) (rest : List Char)
    (hrest : ∀ c ∈ rest.head?, c.isDigit = false) :
    (cs ++ rest).takeWhile Char.isDigit = cs ∧ (cs ++ rest).dropWhile Char.isDigit = rest := by
  rw [List.takeWhile_append_of_pos h, List.dropWhile_append_of_pos h]
  cases rest with
  | nil => simp
  | cons c rest =>
    have hc : c.isDigit = false := hrest c rfl
    simp [hc]

/-- Digits alone are a numeral. -/
theorem ofChars?_whole (h : ∀ c ∈ whole, c.isDigit = true) (hsome : whole ≠ []) :
    Decimal.ofChars? whole = some ⟨Nat.ofDigitChars 10 whole 0, 0⟩ := by
  obtain ⟨htake, hdrop⟩ := takeWhile_digits h [] (by simp)
  rw [List.append_nil] at htake hdrop
  simp [Decimal.ofChars?, htake, hdrop, hsome, exponent?]

/-- So are digits with a point among them. -/
theorem ofChars?_point (h : ∀ c ∈ whole, c.isDigit = true) (h' : ∀ c ∈ fraction, c.isDigit = true)
    (hsome : whole ≠ []) : Decimal.ofChars? (whole ++ '.' :: fraction) =
      some ⟨Nat.ofDigitChars 10 (whole ++ fraction) 0, -(fraction.length : Int)⟩ := by
  obtain ⟨htake, hdrop⟩ := takeWhile_digits h ('.' :: fraction) (by simp)
  obtain ⟨htake', hdrop'⟩ := takeWhile_digits h' [] (by simp)
  rw [List.append_nil] at htake' hdrop'
  simp [Decimal.ofChars?, htake, hdrop, htake', hdrop', hsome, exponent?]

end Digits

/-- The quantity that figures stand for. -/
def Figures.value (f : Figures) : ℚ :=
  Nat.ofDigitChars 10 f.digits 0 * 10 ^ (f.point - f.digits.length)

/-- Figures are all the digits of a decimal but zeros at the end. -/
theorem Decimal.exists_zeros (d : Decimal) : ∃ zeros : Nat,
    Nat.toDigits 10 d.coefficient = d.figures.digits ++ List.replicate zeros '0' := by
  obtain ⟨digits, hdigits⟩ : ∃ digits, digits = Nat.toDigits 10 d.coefficient := ⟨_, rfl⟩
  refine ⟨(digits.reverse.takeWhile (· == '0')).length, ?_⟩
  have hzeros : digits.reverse.takeWhile (· == '0') =
      List.replicate (digits.reverse.takeWhile (· == '0')).length '0' := by
    refine List.eq_replicate_of_mem fun c hc => ?_
    simpa using List.mem_takeWhile_imp hc
  rw [figures, ← hdigits]
  dsimp only
  rw [← List.reverse_replicate, ← hzeros, ← List.reverse_append, List.takeWhile_append_dropWhile,
    List.reverse_reverse]

theorem Decimal.figures_digits (d : Decimal) : ∀ c ∈ d.figures.digits, c.isDigit = true := by
  obtain ⟨zeros, hdigits⟩ := d.exists_zeros
  intro c hc
  refine Nat.isDigit_of_mem_toDigits (b := 10) (n := d.coefficient) (by decide) (by decide) ?_
  rw [hdigits]
  exact List.mem_append_left _ hc

theorem Decimal.figures_value (d : Decimal) : d.figures.value = d.value := by
  obtain ⟨zeros, hdigits⟩ := d.exists_zeros
  have hcoefficient : d.coefficient = 10 ^ zeros * Nat.ofDigitChars 10 d.figures.digits 0 := by
    rw [← Nat.ofDigitChars_replicate_zero, ← Nat.ofDigitChars_append, ← hdigits,
      Nat.ofDigitChars_ten_toDigits]
  have hpoint : d.figures.point = d.figures.digits.length + zeros + d.exponent := by
    have hlength := congrArg List.length hdigits
    rw [List.length_append, List.length_replicate] at hlength
    change (((Nat.toDigits 10 d.coefficient).length : ℕ) : ℤ) + d.exponent = _
    rw [hlength]
    push_cast
    rfl
  rw [Figures.value, value, hpoint, hcoefficient,
    show (d.figures.digits.length + zeros + d.exponent - d.figures.digits.length : ℤ) =
      zeros + d.exponent by ring,
    zpow_add₀ (by norm_num), zpow_natCast]
  push_cast
  ring

theorem Decimal.figures_ne_nil {d : Decimal} (h : d.coefficient ≠ 0) : d.figures.digits ≠ [] := by
  intro hnil
  have hvalue := d.figures_value
  rw [Figures.value, hnil, Nat.ofDigitChars_nil, Nat.cast_zero, zero_mul, value] at hvalue
  have hpower : (10 : ℚ) ^ d.exponent ≠ 0 := by positivity
  rcases mul_eq_zero.mp hvalue.symm with hzero | hzero
  · exact h (by exact_mod_cast hzero)
  · exact hpower hzero

theorem isDigit_of_mem_zeros {zeros : Nat} : ∀ c ∈ List.replicate zeros '0', c.isDigit = true := by
  intro c hc
  rw [List.eq_of_mem_replicate hc]
  rfl

/-- Plain notation says what the figures stand for. -/
theorem ofChars?_positional {f : Figures} (hdigits : ∀ c ∈ f.digits, c.isDigit = true)
    (hsome : f.digits ≠ []) :
    ∃ d, Decimal.ofChars? (f.positional []) = some d ∧ d.value = f.value := by
  obtain ⟨digits, point⟩ := f
  dsimp only at hdigits hsome
  rw [Figures.positional, Figures.value]
  dsimp only
  split
  case isTrue hsmall =>
    obtain ⟨zeros, rfl⟩ : ∃ zeros : Nat, point = -zeros := ⟨(-point).toNat, by omega⟩
    rw [neg_neg, Int.toNat_natCast]
    refine ⟨_, @ofChars?_point ['0'] _ (by simp) (List.forall_mem_append.mpr
      ⟨isDigit_of_mem_zeros, hdigits⟩) (by simp), ?_⟩
    have hzeros : Nat.ofDigitChars 10 (['0'] ++ (List.replicate zeros '0' ++ digits)) 0 =
        Nat.ofDigitChars 10 digits 0 := by
      have hfirst : Nat.ofDigitChars 10 ['0'] 0 = 0 := rfl
      rw [Nat.ofDigitChars_append, Nat.ofDigitChars_append, hfirst, Nat.ofDigitChars_replicate_zero,
        Nat.mul_zero]
    have hexponent : (-((List.replicate zeros '0' ++ digits).length : ℤ)) = -zeros - digits.length := by
      rw [List.length_append, List.length_replicate]
      push_cast
      ring
    rw [Decimal.value, hzeros, hexponent]
  case isFalse hlarge =>
    split
    case isTrue hwhole =>
      obtain ⟨zeros, rfl⟩ : ∃ zeros : Nat, point = digits.length + zeros :=
        ⟨(point - digits.length).toNat, by omega⟩
      have hmore : (digits.length + zeros : ℤ).toNat - digits.length = zeros := by omega
      rw [List.append_nil, hmore]
      refine ⟨_, ofChars?_whole (List.forall_mem_append.mpr ⟨hdigits, isDigit_of_mem_zeros⟩)
        (by simp [hsome]), ?_⟩
      rw [Decimal.value, Nat.ofDigitChars_append, Nat.ofDigitChars_replicate_zero, zpow_zero, mul_one,
        add_sub_cancel_left, zpow_natCast]
      push_cast
      ring
    case isFalse hinside =>
      obtain ⟨before, rfl⟩ : ∃ before : Nat, point = before := ⟨point.toNat, by omega⟩
      rw [Int.toNat_natCast]
      refine ⟨_, ofChars?_point (fun c hc => hdigits c (List.mem_of_mem_take hc))
        (fun c hc => hdigits c (List.mem_of_mem_drop hc)) ?_, ?_⟩
      · rw [ne_eq, List.take_eq_nil_iff, or_iff_left hsome]
        omega
      · have hexponent : (-((digits.drop before).length : ℤ)) = before - digits.length := by
          rw [List.length_drop]
          omega
        rw [Decimal.value, List.take_append_drop, hexponent]

section Signs

variable {negative : Bool} {c : Char} {cs : List Char}

theorem toLower_of_isDigit (h : c.isDigit = true) : c.toLower = c := by
  obtain ⟨-, hnine⟩ := Char.isDigit_iff_toNat.mp h
  rw [Char.toLower, dif_neg]
  rintro ⟨hupper, -⟩
  have hletter : 'A'.toNat ≤ c.toNat := UInt32.le_iff_toNat_le.mp hupper
  exact absurd (hletter.trans hnine) (by decide)

/-- A numeral that starts with a digit is none of the words. -/
theorem magnitude?_digit (h : c.isDigit = true) : magnitude? negative (c :: cs) =
    (Decimal.ofChars? (c :: cs)).map fun d => ofRank negative d.nearestRank := by
  have hword (first : Char) (rest : List Char) (hfirst : first.isDigit = false) :
      (c :: cs).map Char.toLower ≠ first :: rest := by
    intro heq
    rw [List.map_cons, toLower_of_isDigit h, List.cons.injEq] at heq
    rw [heq.1, hfirst] at h
    cases h
  rw [magnitude?, if_neg (not_or.mpr ⟨hword _ _ rfl, hword _ _ rfl⟩), if_neg (hword _ _ rfl)]

/-- A sign is read before the numeral, or there is none. -/
theorem ofChars?_signed (h : c.isDigit = true) :
    ofChars? (if negative then '-' :: c :: cs else c :: cs) =
      (Decimal.ofChars? (c :: cs)).map fun d => ofRank negative d.nearestRank := by
  rw [← magnitude?_digit h]
  cases negative with
  | true => rfl
  | false =>
    have hminus : c ≠ '-' := fun heq => by rw [heq] at h; cases h
    have hplus : c ≠ '+' := fun heq => by rw [heq] at h; cases h
    simp only [Bool.false_eq_true, ↓reduceIte]
    unfold ofChars?
    split <;> simp_all

end Signs

/-- A number is known by its sign and its rank. -/
theorem ofRank_rank (x : Float) : ofRank (isNegative x) (rank x) = x := by
  have hsame : (if isNegative x then signBit + rank x else rank x) = x.toBits.toNat := by
    have hbits : x.toBits.toNat < 2 * signBit := x.toBits.toNat_lt
    rw [isNegative, rank]
    rcases Nat.lt_or_ge x.toBits.toNat signBit with hless | hmore
    · rw [decide_eq_false (Nat.not_le.mpr hless), if_neg Bool.false_ne_true, Nat.mod_eq_of_lt hless]
    · rw [decide_eq_true hmore, if_pos rfl, Nat.mod_eq_sub_mod hmore, Nat.mod_eq_of_lt (by omega)]
      omega
  rw [ofRank, hsame, UInt64.ofNat_toNat, Float.ofBits_toBits]

/-- Plain notation starts with a digit. -/
theorem exists_digit {f : Figures} (hdigits : ∀ c ∈ f.digits, c.isDigit = true)
    (hsome : f.digits ≠ []) : ∃ c cs, f.positional [] = c :: cs ∧ c.isDigit = true := by
  obtain ⟨digits, point⟩ := f
  obtain ⟨c, cs, rfl⟩ := List.exists_cons_of_ne_nil hsome
  have hc : c.isDigit = true := hdigits c List.mem_cons_self
  rw [Figures.positional]
  dsimp only
  split
  case isTrue => exact ⟨_, _, rfl, rfl⟩
  case isFalse hlarge =>
    split
    case isTrue => exact ⟨c, _, rfl, hc⟩
    case isFalse =>
      obtain ⟨before, rfl⟩ : ∃ before : Nat, point = (before + 1 : Nat) :=
        ⟨point.toNat - 1, by omega⟩
      rw [Int.toNat_natCast]
      exact ⟨c, _, rfl, hc⟩

/-- A finite number in plain notation, without its sign. -/
def unsigned (x : Float) : List Char :=
  if rank x = 0 then ['0'] else (shortest .away (rank x)).figures.positional []

theorem shownStyle_chars (x : Float) :
    shownStyle.chars x = if isNegative x then '-' :: unsigned x else unsigned x := by
  simp only [Style.chars, shownStyle, unsigned, ↓reduceIte]

/-- The digits of a finite number start with one and are read as its magnitude. -/
theorem unsigned_reads {x : Float} (hfinite : rank x < infinityRank) :
    ∃ c cs d, unsigned x = c :: cs ∧ c.isDigit = true ∧
      Decimal.ofChars? (unsigned x) = some d ∧ d.nearestRank = rank x := by
  rw [unsigned]
  split
  case isTrue hzero => exact ⟨'0', [], ⟨0, 0⟩, rfl, rfl, rfl, hzero.symm⟩
  case isFalse hnonzero =>
    have hreads := shortest_nearestRank .away hfinite
    have hcoefficient := @coefficient_shortest_ne_zero .away (rank x) hfinite hnonzero
    generalize shortest .away (rank x) = d at hreads hcoefficient
    have hsome := Decimal.figures_ne_nil hcoefficient
    obtain ⟨d', hd', hvalue⟩ := ofChars?_positional d.figures_digits hsome
    obtain ⟨c, cs, hcs, hc⟩ := exists_digit d.figures_digits hsome
    refine ⟨c, cs, d', hcs, hc, hd', ?_⟩
    rw [Decimal.nearestRank_congr (hvalue.trans d.figures_value), hreads]

/-- A finite number in plain notation is read as itself, the sign of zero included. -/
theorem ofChars?_shownStyle {x : Float} (hfinite : rank x < infinityRank) :
    ofChars? (shownStyle.chars x) = some x := by
  obtain ⟨c, cs, d, hcs, hc, hd, hreads⟩ := unsigned_reads hfinite
  rw [shownStyle_chars, hcs, ofChars?_signed hc, ← hcs, hd, Option.map_some, hreads, ofRank_rank]

/-- Beyond infinity there are only patterns of bits that are no number. -/
theorem isNaN_iff {x : Float} : x.isNaN = true ↔ infinityRank < rank x := by
  rw [Float.isNaN_eq_decide_eq_nan, decide_eq_true_iff]
  constructor
  · rintro rfl
    decide +kernel
  · intro hlarge
    have hbits := x.toBits.toNat_lt
    simp only [rank, signBit, infinityRank] at hlarge
    have hones : @Float.Model.UnpackedFloat.unpackExponent .binary64 x.toBits.toBitVec = -1#11 := by
      apply BitVec.eq_of_toNat_eq
      change (BitVec.extractLsb 62 52 x.toBits.toBitVec).toNat = 2047
      rw [BitVec.extractLsb_toNat, Nat.shiftRight_eq_div_pow]
      change x.toBits.toNat / 2 ^ 52 % 2 ^ 11 = 2047
      omega
    have hpayload : @Float.Model.UnpackedFloat.unpackMantissa .binary64 x.toBits.toBitVec ≠ 0#52 := by
      intro hzero
      have hnat : (BitVec.extractLsb 51 0 x.toBits.toBitVec).toNat = 0 := congrArg BitVec.toNat hzero
      rw [BitVec.extractLsb_toNat, Nat.shiftRight_eq_div_pow] at hnat
      change x.toBits.toNat / 2 ^ 0 % 2 ^ 52 = 0 at hnat
      omega
    have hsame := x.toModel.valid.eq_packedNaN hones hpayload
    refine Float.toBits_inj.mp (UInt64.toBitVec_inj.mp (hsame.trans ?_))
    decide +kernel
/-- Every number is read as it was, only that any NaN is read as one of them. -/
theorem ofChars?_plainChars (x : Float) :
    ofChars? (plainChars x) = some (if x.isNaN then notANumber else x) := by
  have hnumber (hle : rank x ≤ infinityRank) : ¬x.isNaN = true := by
    rw [isNaN_iff]
    omega
  rw [plainChars]
  split
  case isTrue hfinite => rw [ofChars?_shownStyle hfinite, if_neg (hnumber hfinite.le)]
  case isFalse hlarge =>
    split
    case isTrue hinfinite =>
      have hx := ofRank_rank x
      rw [if_neg (hnumber hinfinite.le)]
      rw [hinfinite] at hx
      cases hsign : isNegative x with
      | true =>
        rw [hsign] at hx
        exact congrArg some hx
      | false =>
        rw [hsign] at hx
        exact congrArg some hx
    case isFalse hnan =>
      rw [if_pos (isNaN_iff.mpr (by omega))]
      rfl

end ChainExpr.Number
