/-!
# Hexadecimal digits

The digits of base 16 and their values. Letters are read in either case; what is written
has small letters in one format and capital ones in another.

Key definitions: `hexValue?`, `hexDigit`, `capitalHexDigit`.
-/

namespace CurrencyDesk.Text

/-- The value of a hexadecimal digit. -/
def hexValue? (c : Char) : Option Nat :=
  if '0' ≤ c ∧ c ≤ '9' then some (c.toNat - 48)
  else if 'a' ≤ c ∧ c ≤ 'f' then some (c.toNat - 87)
  else if 'A' ≤ c ∧ c ≤ 'F' then some (c.toNat - 55)
  else none

/-- The digit of a number below 16, with small letters. -/
def hexDigit (n : Nat) : Char :=
  Char.ofNat (if n < 10 then 48 + n else 87 + n)

/-- The digit of a number below 16, with capital letters. -/
def capitalHexDigit (n : Nat) : Char :=
  Char.ofNat (if n < 10 then 48 + n else 55 + n)

theorem hexValue?_capitalHexDigit {n : Nat} (h : n < 16) :
    hexValue? (capitalHexDigit n) = some n := by
  have all : ∀ k : Fin 16, hexValue? (capitalHexDigit k) = some k.val := by decide
  exact all ⟨n, h⟩

end CurrencyDesk.Text
