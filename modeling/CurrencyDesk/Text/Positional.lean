/-!
# Digits in their places

How a sign, digits and a point make up a number's text. A point stands behind at
least one digit: zeros are put in front of digits that do not reach it.

Key definitions: `placePoint`, `signed`.
-/

namespace CurrencyDesk.Text

/-- Places a point in front of the last `places` digits. -/
def placePoint (digits : List Char) (places : Nat) : List Char :=
  let padded := List.replicate (places + 1 - digits.length) '0' ++ digits
  let whole := padded.length - places
  padded.take whole ++ '.' :: padded.drop whole

/-- A minus in front of what is negative. -/
def signed (negative : Bool) (s : List Char) : List Char :=
  if negative then '-' :: s else s

end CurrencyDesk.Text
