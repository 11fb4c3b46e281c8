namespace ChainExpr.Text

/-- The value of a digit in either case. -/
def hexValue? (c : Char) : Option Nat :=
  if '0' ≤ c ∧ c ≤ '9' then some (c.toNat - '0'.toNat)
  else if 'a' ≤ c ∧ c ≤ 'f' then some (c.toNat - 'a'.toNat + 10)
  else if 'A' ≤ c ∧ c ≤ 'F' then some (c.toNat - 'A'.toNat + 10)
  else none

/-- The number that digits say, if all of them are digits. -/
def hexNumber? (digits : List Char) : Option Nat :=
  digits.foldlM (fun n c => (hexValue? c).map (n * 16 + ·)) 0

/-- The digit of the lowest four bits, in lower case. -/
def hexDigit (n : Nat) : Char := Nat.digitChar (n % 16)

/-- The lowest digits of a number, as many as asked for. -/
def hexDigits (n : Nat) : Nat → List Char
  | 0 => []
  | count + 1 => hexDigits (n / 16) count ++ [hexDigit n]

theorem hexValue?_hexDigit (n : Nat) : hexValue? (hexDigit n) = some (n % 16) := by
  have h : ∀ d : Fin 16, hexValue? (Nat.digitChar d) = some d.val := by decide
  exact h ⟨n % 16, Nat.mod_lt n (by decide)⟩

/-- Reading the digits gives the number back as far as they go. -/
theorem hexNumber?_hexDigits (n count : Nat) :
    hexNumber? (hexDigits n count) = some (n % Nat.pow 16 count) := by
  induction count generalizing n with
  | zero => simp [hexDigits, hexNumber?, Nat.mod_one]
  | succ count ih =>
    have hpower : n % Nat.pow 16 (count + 1) = n / 16 % Nat.pow 16 count * 16 + n % 16 := by
      rw [Nat.pow_eq, Nat.pow_eq, Nat.pow_succ', Nat.mod_mul]
      omega
    unfold hexNumber? at ih ⊢
    rw [hexDigits, List.foldlM_append, ih, hpower]
    simp [hexValue?_hexDigit]

end ChainExpr.Text
