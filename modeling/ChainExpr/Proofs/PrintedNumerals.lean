import ChainExpr.Json.Printer
import ChainExpr.Json.Token
import ChainExpr.Proofs.PlainNotation
import ChainExpr.Proofs.WireWriting
import Mathlib

namespace ChainExpr

namespace Json

/-- Nothing at the head of the text goes on with the numeral before it. -/
def EndsNumeral (rest : List Char) : Prop :=
  ∀ c ∈ rest.head?, c.isDigit = false ∧ c ≠ '.' ∧ c ≠ 'e' ∧ c ≠ 'E'

namespace Numeral

def fractionChars (fraction : List Char) : List Char :=
  if fraction = [] then [] else '.' :: fraction

def exponentChars : Option Int → List Char
  | none => []
  | some power => 'e' :: (if power < 0 then '-' else '+') :: Nat.toDigits 10 power.natAbs

/-- The numeral without its sign. -/
def magnitudeChars (n : Numeral) : List Char :=
  n.whole ++ (fractionChars n.fraction ++ exponentChars n.exponent)

/-- The text of a numeral, its exponent with a sign. -/
def chars (n : Numeral) : List Char :=
  if n.negative then '-' :: n.magnitudeChars else n.magnitudeChars

/-- Digits on both sides of the point, at least one before it, and no zero in front of others. -/
structure Proper (n : Numeral) : Prop where
  whole : ∀ c ∈ n.whole, c.isDigit = true
  nonempty : n.whole ≠ []
  leading : n.whole.head? = some '0' → n.whole = ['0']
  fraction : ∀ c ∈ n.fraction, c.isDigit = true

end Numeral

open Numeral

theorem isDigit_of_mem_decimal {n : Nat} : ∀ c ∈ Nat.toDigits 10 n, c.isDigit = true :=
  fun _ hc => Nat.isDigit_of_mem_toDigits (by decide) (by decide) hc

theorem readExponent_chars (exponent : Option Int) {rest : List Char} (hrest : EndsNumeral rest) :
    readExponent (exponentChars exponent ++ rest) = (exponent, rest) := by
  cases exponent with
  | none =>
    cases rest with
    | nil => rfl
    | cons c rest =>
      obtain ⟨-, -, he, hE⟩ := hrest c rfl
      simp [exponentChars, readExponent, he, hE]
  | some power =>
    obtain ⟨htake, hdrop⟩ := Number.takeWhile_digits (isDigit_of_mem_decimal (n := power.natAbs)) rest
      fun c hc => (hrest c hc).1
    rcases lt_or_ge power 0 with hneg | hpos
    · simp [exponentChars, readExponent, hneg, htake, hdrop, Nat.toDigits_ne_nil, abs_of_neg hneg]
    · simp [exponentChars, readExponent, not_lt.mpr hpos, htake, hdrop, Nat.toDigits_ne_nil,
        abs_of_nonneg hpos]

theorem endsDigits_exponentChars (exponent : Option Int) {rest : List Char} (hrest : EndsNumeral rest) :
    ∀ c ∈ (exponentChars exponent ++ rest).head?, c.isDigit = false ∧ c ≠ '.' := by
  cases exponent with
  | none => exact fun c hc => ⟨(hrest c hc).1, (hrest c hc).2.1⟩
  | some power =>
    intro c hc
    cases hc
    exact ⟨rfl, by decide⟩

theorem readFraction_chars {fraction rest : List Char} (h : ∀ c ∈ fraction, c.isDigit = true)
    (hrest : ∀ c ∈ rest.head?, c.isDigit = false ∧ c ≠ '.') :
    readFraction (fractionChars fraction ++ rest) = (fraction, rest) := by
  rw [fractionChars]
  split
  case isTrue hnone =>
    subst hnone
    cases rest with
    | nil => rfl
    | cons c rest =>
      have hpoint := (hrest c rfl).2
      rw [List.nil_append, readFraction]
      simpa using hpoint
  case isFalse hsome =>
    obtain ⟨htake, hdrop⟩ := Number.takeWhile_digits h rest fun c hc => (hrest c hc).1
    rw [List.cons_append, readFraction, htake, hdrop, if_neg hsome]

/-- Behind the digits before the point, only more digits would go on with them. -/
theorem endsDigits_fractionChars {fraction rest : List Char}
    (hrest : ∀ c ∈ rest.head?, c.isDigit = false ∧ c ≠ '.') :
    ∀ c ∈ (fractionChars fraction ++ rest).head?, c.isDigit = false := by
  rw [fractionChars]
  split
  · exact fun c hc => (hrest c hc).1
  · intro c hc
    cases hc
    rfl

namespace Numeral

variable {n : Numeral} {rest : List Char}

theorem Proper.readMagnitude (h : n.Proper) (hrest : EndsNumeral rest) :
    Json.readMagnitude n.negative (n.magnitudeChars ++ rest) = some (n, rest) := by
  obtain ⟨negative, whole, fraction, exponent⟩ := n
  obtain ⟨c, more, rfl⟩ := List.exists_cons_of_ne_nil h.nonempty
  have hexponent := endsDigits_exponentChars exponent hrest
  have hmore : (if c = '0' then []
      else (more ++ (fractionChars fraction ++ (exponentChars exponent ++ rest))).takeWhile
        Char.isDigit) = more := by
    split
    case isTrue hzero =>
      subst hzero
      exact (List.cons.inj (h.leading rfl)).2.symm
    case isFalse =>
      exact (Number.takeWhile_digits (fun d hd => h.whole d (List.mem_cons_of_mem _ hd)) _
        (endsDigits_fractionChars hexponent)).1
  simp only [magnitudeChars, List.cons_append, List.append_assoc, Json.readMagnitude,
    h.whole c List.mem_cons_self, ↓reduceIte, hmore, List.drop_left,
    readFraction_chars h.fraction hexponent, readExponent_chars exponent hrest]

theorem Proper.exists_digit (h : n.Proper) : ∃ c cs, n.magnitudeChars = c :: cs ∧ c.isDigit = true := by
  obtain ⟨c, more, hwhole⟩ := List.exists_cons_of_ne_nil h.nonempty
  refine ⟨c, _, by rw [magnitudeChars, hwhole, List.cons_append], ?_⟩
  exact h.whole c (hwhole ▸ List.mem_cons_self)

/-- The text of a numeral is read as the numeral. -/
theorem Proper.readNumeral (h : n.Proper) (hrest : EndsNumeral rest) :
    Json.readNumeral (n.chars ++ rest) = some (n, rest) := by
  have hmagnitude := h.readMagnitude hrest
  obtain ⟨c, cs, hcs, hc⟩ := h.exists_digit
  rw [chars]
  cases hsign : n.negative with
  | true =>
    rw [hsign] at hmagnitude
    exact hmagnitude
  | false =>
    rw [hsign, hcs] at hmagnitude
    rw [if_neg Bool.false_ne_true, hcs, List.cons_append, Json.readNumeral]
    · exact hmagnitude
    · rintro cs' hminus
      rw [(List.cons.inj hminus).1] at hc
      cases hc

end Numeral

end Json

/-- A decimal numeral of a positive number starts with no zero. -/
theorem head?_toDigits {n : Nat} (h : n ≠ 0) : (Nat.toDigits 10 n).head? ≠ some '0' := by
  induction n using Nat.strongRecOn with
  | ind n ih =>
    rcases Nat.lt_or_ge n 10 with hless | hmore
    · rw [Nat.toDigits_of_lt_base hless]
      interval_cases n <;> simp_all
    · have hhead := ih (n / 10) (by omega) (by omega)
      rw [Nat.toDigits_of_base_le (by decide) hmore, List.head?_append_of_ne_nil _ Nat.toDigits_ne_nil]
      exact hhead

namespace Number

/-- The numeral of figures, with digits on both sides of its point or with an exponent. -/
def Figures.numeral (negative : Bool) (f : Figures) : Json.Numeral :=
  if JsonNumber.style.positional f.point then
    if f.point ≤ 0 then ⟨negative, ['0'], List.replicate (-f.point).toNat '0' ++ f.digits, none⟩
    else if (f.digits.length : Int) ≤ f.point then
      ⟨negative, f.digits ++ List.replicate (f.point.toNat - f.digits.length) '0', ['0'], none⟩
    else ⟨negative, f.digits.take f.point.toNat, f.digits.drop f.point.toNat, none⟩
  else ⟨negative, f.digits.take 1, f.digits.drop 1, some (f.point - 1)⟩

/-- Digits with one that is no zero in front. -/
structure Figures.Leading (f : Figures) : Prop where
  digits : ∀ c ∈ f.digits, c.isDigit = true
  nonempty : f.digits ≠ []
  leading : f.digits.head? ≠ some '0'

namespace Figures

theorem numeral_negative (negative : Bool) (f : Figures) : (f.numeral negative).negative = negative := by
  rw [numeral]
  split
  · split
    · rfl
    · split <;> rfl
  · rfl

variable {f : Figures} (h : f.Leading) (negative : Bool)

include h

theorem Leading.take {count : Nat} (hcount : count ≠ 0) :
    (∀ c ∈ f.digits.take count, c.isDigit = true) ∧ f.digits.take count ≠ [] ∧
      (f.digits.take count).head? ≠ some '0' := by
  refine ⟨fun c hc => h.digits c (List.mem_of_mem_take hc), ?_, ?_⟩
  · simp [List.take_eq_nil_iff, hcount, h.nonempty]
  · rw [List.head?_take, if_neg hcount]
    exact h.leading

theorem numeral_proper : (f.numeral negative).Proper := by
  rw [numeral]
  split
  · split
    · refine ⟨by simp, by simp, fun _ => rfl, List.forall_mem_append.mpr ⟨?_, h.digits⟩⟩
      exact isDigit_of_mem_zeros
    · split
      · refine ⟨List.forall_mem_append.mpr ⟨h.digits, isDigit_of_mem_zeros⟩, by simp [h.nonempty],
          fun hzero => ?_, by simp⟩
        rw [List.head?_append_of_ne_nil _ h.nonempty] at hzero
        exact absurd hzero h.leading
      · have hpoint : f.point.toNat ≠ 0 := by omega
        obtain ⟨hdigits, hnonempty, hleading⟩ := h.take hpoint
        exact ⟨hdigits, hnonempty, fun hzero => absurd hzero hleading,
          fun c hc => h.digits c (List.mem_of_mem_drop hc)⟩
  · obtain ⟨hdigits, hnonempty, hleading⟩ := h.take Nat.one_ne_zero
    exact ⟨hdigits, hnonempty, fun hzero => absurd hzero hleading,
      fun c hc => h.digits c (List.mem_of_mem_drop hc)⟩

theorem numeral_magnitudeChars : (f.numeral negative).magnitudeChars =
    if JsonNumber.style.positional f.point then f.positional JsonNumber.style.wholeTail
    else f.scientific := by
  obtain ⟨digits, point⟩ := f
  obtain ⟨c, more, rfl⟩ := List.exists_cons_of_ne_nil h.nonempty
  rw [numeral]
  dsimp only
  split
  · rw [positional]
    dsimp only
    split
    · simp [Json.Numeral.magnitudeChars, Json.Numeral.fractionChars, Json.Numeral.exponentChars]
    · split
      · simp [Json.Numeral.magnitudeChars, Json.Numeral.fractionChars, Json.Numeral.exponentChars,
          JsonNumber.style]
      · rename_i hinside
        have hdrop : (c :: more).drop point.toNat ≠ [] := by
          rw [ne_eq, List.drop_eq_nil_iff]
          omega
        simp only [Json.Numeral.magnitudeChars, Json.Numeral.fractionChars, if_neg hdrop,
          Json.Numeral.exponentChars, List.append_nil]
  · cases more <;>
      simp [scientific, Json.Numeral.magnitudeChars, Json.Numeral.fractionChars,
        Json.Numeral.exponentChars]

end Figures

theorem Decimal.figures_leading {d : Decimal} (h : d.coefficient ≠ 0) : d.figures.Leading where
  digits := d.figures_digits
  nonempty := figures_ne_nil h
  leading := by
    obtain ⟨zeros, hdigits⟩ := d.exists_zeros
    have hhead := head?_toDigits h
    rwa [hdigits, List.head?_append_of_ne_nil _ (figures_ne_nil h)] at hhead

end Number

namespace JsonNumber

open Json Number

/-- The numeral that a number is written as. -/
def numeral : JsonNumber → Numeral
  | .integer n => ⟨decide (n < 0), Nat.toDigits 10 n.natAbs, [], none⟩
  | .float x =>
    if rank x = 0 then ⟨isNegative x, ['0'], ['0'], none⟩
    else (shortest style.tie (rank x)).figures.numeral (isNegative x)

theorem figures_shortest_leading {r : Nat} (hfinite : r < infinityRank) (hnonzero : r ≠ 0) :
    (shortest style.tie r).figures.Leading :=
  Decimal.figures_leading (coefficient_shortest_ne_zero hfinite hnonzero)

variable {n : JsonNumber}

theorem WellFormed.numeral_proper (h : n.WellFormed) : n.numeral.Proper := by
  cases n with
  | integer n =>
    refine ⟨isDigit_of_mem_decimal, Nat.toDigits_ne_nil, fun hzero => ?_, by simp [numeral]⟩
    by_cases hn : n.natAbs = 0
    · rw [numeral, hn]
      rfl
    · exact absurd hzero (head?_toDigits hn)
  | float x =>
    rw [numeral]
    split
    case isTrue => exact ⟨by simp, by simp, fun _ => rfl, by simp⟩
    case isFalse hnonzero =>
      exact Figures.numeral_proper (figures_shortest_leading h hnonzero) (isNegative x)

/-- A number is written as the text of its numeral. -/
theorem WellFormed.chars_eq (h : n.WellFormed) : n.chars = n.numeral.chars := by
  cases n with
  | integer n =>
    rcases lt_or_ge n 0 with hneg | hpos
    · simp [chars, integerChars, numeral, Numeral.chars, Numeral.magnitudeChars,
        Numeral.fractionChars, Numeral.exponentChars, hneg]
    · simp [chars, integerChars, numeral, Numeral.chars, Numeral.magnitudeChars,
        Numeral.fractionChars, Numeral.exponentChars, not_lt.mpr hpos]
  | float x =>
    have hfinite : rank x < infinityRank := h
    rw [chars, if_pos hfinite, Style.chars, numeral]
    by_cases hzero : rank x = 0
    · rw [if_pos hzero, if_pos hzero]
      rfl
    · rw [if_neg hzero, if_neg hzero, Numeral.chars, Figures.numeral_negative,
        Figures.numeral_magnitudeChars (figures_shortest_leading hfinite hzero)]

/-- A number starts with its sign or a digit. -/
theorem WellFormed.exists_first (h : n.WellFormed) :
    ∃ c cs, n.chars = c :: cs ∧ (c = '-' ∨ c.isDigit = true) := by
  obtain ⟨c, cs, hcs, hc⟩ := h.numeral_proper.exists_digit
  rw [h.chars_eq, Numeral.chars]
  split
  · exact ⟨'-', _, rfl, .inl rfl⟩
  · exact ⟨c, cs, hcs, .inr hc⟩

/-- What is written for a number is read as its numeral. -/
theorem WellFormed.readNumeral (h : n.WellFormed) {rest : List Char} (hrest : EndsNumeral rest) :
    Json.readNumeral (n.chars ++ rest) = some (n.numeral, rest) := by
  rw [h.chars_eq]
  exact h.numeral_proper.readNumeral hrest

end JsonNumber

namespace Json

theorem le_ofDigitChars (cs : List Char) (significand : Nat) :
    significand ≤ Nat.ofDigitChars 10 cs significand := by
  induction cs generalizing significand with
  | nil => rw [Nat.ofDigitChars_nil]
  | cons c rest ih =>
    rw [Nat.ofDigitChars_cons]
    exact (by omega : significand ≤ _).trans (ih _)

/-- Digits that fit are all taken. -/
theorem takeDigits_of_lt {cs : List Char} {significand : Nat}
    (h : Nat.ofDigitChars 10 cs significand < significandLimit) :
    takeDigits significand cs = (Nat.ofDigitChars 10 cs significand, 0) := by
  induction cs generalizing significand with
  | nil => rw [takeDigits, Nat.ofDigitChars_nil]
  | cons c rest ih =>
    have hone : Nat.ofDigitChars 10 (c :: rest) significand =
        Nat.ofDigitChars 10 rest (Nat.ofDigitChars 10 [c] significand) := by
      rw [← Nat.ofDigitChars_append, List.singleton_append]
    rw [hone] at h ⊢
    rw [takeDigits, if_pos ((le_ofDigitChars rest _).trans_lt h), ih h]

end Json

namespace JsonNumber

open Json

/-- An integer in range is read as it was. -/
theorem value?_integer {n : Int} (h : (integer n).WellFormed) :
    (integer n).numeral.value? = some (.integer n) := by
  obtain ⟨hlow, hhigh⟩ := h
  have hfits : Nat.ofDigitChars 10 (Nat.toDigits 10 n.natAbs) 0 < significandLimit := by
    rw [Nat.ofDigitChars_ten_toDigits, significandLimit]
    omega
  have htake := takeDigits_of_lt hfits
  rw [Nat.ofDigitChars_ten_toDigits] at htake
  rw [Numeral.value?, numeral]
  simp only [htake, true_and]
  rcases lt_or_ge n 0 with hneg | hpos
  · rw [if_neg (by simpa using hneg), if_pos (by omega)]
    congr 2
    omega
  · rw [if_pos (by simpa using hpos)]
    congr 2
    omega

end JsonNumber

end ChainExpr
