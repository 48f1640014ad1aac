/-!
# Runs of characters with a common distance to their other case

The letters of most alphabets lie side by side in either case, or take turns. A run
holds such letters: every `stride`-th code point from `first` to `last`, each of
which stands `shift` code points away from its form in the other case.

Key definitions: `CaseRun`, `CaseRun.form?`, `formIn`.
-/

namespace CurrencyDesk.Text

/-- Evenly spaced code points with one distance to their forms in the other case. -/
structure CaseRun where
  first : Nat
  last : Nat
  stride : Nat
  shift : Int

/-- The form of a code point in the other case, if the run holds it. -/
def CaseRun.form? (r : CaseRun) (n : Nat) : Option Nat :=
  if r.first ≤ n ∧ n ≤ r.last ∧ (n - r.first) % r.stride = 0 then some ((n : Int) + r.shift).toNat
  else none

/-- The form of a character that the first run with it gives; a character in no
run is its own form. -/
def formIn (runs : List CaseRun) (c : Char) : Char :=
  match runs.findSome? (·.form? c.toNat) with
  | some n => Char.ofNat n
  | none => c

end CurrencyDesk.Text
