import CurrencyDesk.Binary64.Basic
/-!
# The nearest binary64 number

Reading a numeral, multiplying and dividing all end in the same step: an exact
fraction of natural numbers is rounded to the nearest number of the format, and
to the one with the even mantissa when two are equally near. `unitExponent`
finds the unit of the last place that the format has at that magnitude,
`roundQuotient` rounds to a whole number of such units, and a magnitude that is
rounded past the largest number becomes infinite.

Key definitions: `roundQuotient`, `unitExponent`, `nearest`, `mul`, `div`.
Key theorems: `two_mul_roundQuotient_mul_le`, `le_two_mul_roundQuotient_mul`,
`roundQuotient_even_of_tie`.
-/

namespace CurrencyDesk.Binary64

attribute [local instance] corePow

/-- The whole number nearest to `numerator / denominator`, and the even one of two
that are equally near. -/
def roundQuotient (numerator denominator : Nat) : Nat :=
  let quotient := numerator / denominator
  let rest := numerator % denominator
  if 2 * rest < denominator ∨ (2 * rest = denominator ∧ quotient % 2 = 0) then quotient
  else quotient + 1

/-- The exponent of the greatest power of two that is at most the fraction. -/
def leadingExponent (numerator denominator : Nat) : Int :=
  let guess : Int := (numerator.log2 : Int) - denominator.log2
  if denominator * 2 ^ guess.toNat ≤ numerator * 2 ^ (-guess).toNat then guess else guess - 1

/-- The exponent of the unit of the last place at the magnitude of the fraction. -/
def unitExponent (numerator denominator : Nat) : Int :=
  max (leadingExponent numerator denominator - 52) (-1074)

/-- The number nearest to the fraction, with the sign given. -/
def nearest (negative : Bool) (numerator denominator : Nat) : Binary64 :=
  if numerator = 0 then zero negative
  else
    let exponent := unitExponent numerator denominator
    let units :=
      roundQuotient (numerator * 2 ^ (-exponent).toNat) (denominator * 2 ^ exponent.toNat)
    if units = 2 ^ (53 : Nat) then ofParts negative (2 ^ (52 : Nat)) (exponent + 1)
    else ofParts negative units exponent

/-- The number nearest to an integer. -/
def ofInt (n : Int) : Binary64 :=
  nearest (decide (n < 0)) n.natAbs 1

/-- The product of two finite numbers, correctly rounded. -/
def Finite.mul (x y : Finite) : Binary64 :=
  nearest (x.negative != y.negative) (x.numerator * y.numerator) (x.denominator * y.denominator)

/-- The product, correctly rounded; infinity times zero is `nan`. -/
def mul : Binary64 → Binary64 → Binary64
  | .finite x, .finite y => x.mul y
  | .infinity s, .infinity t => .infinity (s != t)
  | .infinity s, .finite y => if y.mantissa = 0 then .nan else .infinity (s != y.negative)
  | .finite x, .infinity t => if x.mantissa = 0 then .nan else .infinity (x.negative != t)
  | .nan, _ => .nan
  | _, .nan => .nan

/-- The quotient of two finite numbers, correctly rounded. -/
def Finite.div (x y : Finite) : Binary64 :=
  if y.mantissa = 0 then
    if x.mantissa = 0 then .nan else .infinity (x.negative != y.negative)
  else
    nearest (x.negative != y.negative) (x.numerator * y.denominator) (x.denominator * y.numerator)

/-- A finite number rounded to a whole one, a half going away from zero. -/
def Finite.roundWhole (x : Finite) : Binary64 :=
  if 0 ≤ x.exponent then .finite x
  else nearest x.negative ((2 * x.numerator + x.denominator) / (2 * x.denominator)) 1

theorem two_mul_roundQuotient_mul_le (n d : Nat) :
    2 * (roundQuotient n d * d) ≤ 2 * n + d := by
  have h := Nat.div_add_mod n d
  rw [Nat.mul_comm] at h
  unfold roundQuotient
  simp only
  split
  · omega
  · rw [Nat.add_mul, Nat.one_mul]
    omega

theorem le_two_mul_roundQuotient_mul (n : Nat) {d : Nat} (hd : 0 < d) :
    2 * n ≤ 2 * (roundQuotient n d * d) + d := by
  have h := Nat.div_add_mod n d
  have hr := Nat.mod_lt n hd
  rw [Nat.mul_comm] at h
  unfold roundQuotient
  simp only
  split
  · omega
  · rw [Nat.add_mul, Nat.one_mul]
    omega

/-- Of two whole numbers that are equally near the even one is taken. -/
theorem roundQuotient_even_of_tie (n : Nat) {d : Nat} (hd : 0 < d)
    (h : 2 * (roundQuotient n d * d) = 2 * n + d ∨ 2 * n = 2 * (roundQuotient n d * d) + d) :
    roundQuotient n d % 2 = 0 := by
  have hn := Nat.div_add_mod n d
  have hr := Nat.mod_lt n hd
  rw [Nat.mul_comm] at hn
  unfold roundQuotient at h ⊢
  simp only at h ⊢
  split at h
  · rw [if_pos (by assumption)]
    omega
  · rw [if_neg (by assumption)]
    rw [Nat.add_mul, Nat.one_mul] at h
    omega

end CurrencyDesk.Binary64
