import CurrencyDesk.Power
/-!
# Binary64 numbers

The numbers that amounts and rates are computed with: the binary64 format of
IEEE 754, as exact integers. A finite number is a sign, a mantissa below
`2 ^ 53` and the exponent of its unit; `Canonical` picks one such pair for every
magnitude, so two finite numbers are equal exactly when their fields are. The
magnitude is the fraction `numerator / denominator`, and every operation of
the library is stated on these two natural numbers.

Key definitions: `Canonical`, `Finite`, `Binary64`, `Finite.numerator`,
`Finite.denominator`.
-/

namespace CurrencyDesk

namespace Binary64

attribute [local instance] corePow

/-- The pairs of a mantissa and an exponent that write every magnitude once: the
leading bit of the mantissa is set, unless the exponent is the least there is. -/
def Canonical (mantissa : Nat) (exponent : Int) : Prop :=
  mantissa < 2 ^ (53 : Nat) ∧ -1074 ≤ exponent ∧ exponent ≤ 971 ∧
    (exponent = -1074 ∨ 2 ^ (52 : Nat) ≤ mantissa)

instance (mantissa : Nat) (exponent : Int) : Decidable (Canonical mantissa exponent) :=
  inferInstanceAs (Decidable (_ ∧ _))

/-- A finite number: `mantissa * 2 ^ exponent`, with a sign that zero has too. -/
structure Finite where
  negative : Bool
  mantissa : Nat
  exponent : Int
  canonical : Canonical mantissa exponent
deriving DecidableEq

namespace Finite

/-- Zero of either sign. -/
def zero (negative : Bool) : Finite :=
  ⟨negative, 0, -1074, by decide⟩

/-- The numerator of the magnitude. -/
def numerator (x : Finite) : Nat :=
  x.mantissa * 2 ^ x.exponent.toNat

/-- The denominator of the magnitude, a power of two. -/
def denominator (x : Finite) : Nat :=
  2 ^ (-x.exponent).toNat

/-- The same magnitude with the other sign. -/
def neg (x : Finite) : Finite :=
  { x with negative := !x.negative }

theorem denominator_pos (x : Finite) : 0 < x.denominator :=
  Nat.two_pow_pos _

end Finite

end Binary64

/-- A number of the binary64 format. -/
inductive Binary64 where
  | nan
  | infinity (negative : Bool)
  | finite (value : Binary64.Finite)
deriving DecidableEq

namespace Binary64

/-- Zero of either sign. -/
def zero (negative : Bool) : Binary64 :=
  .finite (.zero negative)

/-- Whether a number is neither infinite nor `nan`. -/
def isFinite : Binary64 → Bool
  | .finite _ => true
  | _ => false

/-- The finite number that a mantissa and an exponent write, and an infinity when
the format has none. -/
def ofParts (negative : Bool) (mantissa : Nat) (exponent : Int) : Binary64 :=
  if h : Canonical mantissa exponent then .finite ⟨negative, mantissa, exponent, h⟩
  else .infinity negative

end Binary64

end CurrencyDesk
