import CurrencyDesk.Binary64.Basic
import CurrencyDesk.Rate.Fault
/-!
# Sources of rates

A source is asked for the rate of a pair and answers after some time, with a rate or
with a fault. It may have a state of its own. A prepared source has its answers laid
out in a queue for each pair: each question takes the first one, and the last one stays
for good.

Key definitions: `RateSource`, `Answer`, `Prepared`, `Prepared.source`.
-/

namespace CurrencyDesk

/-- The answer of a source, and the milliseconds that it takes. -/
structure Answer where
  delay : Nat
  result : Except RateFault Binary64

/-- A source of rates with states `σ`. -/
structure RateSource (σ : Type) where
  ask : σ → CurrencyPair → Answer × σ

/-- The answers that are laid out for pairs. -/
abbrev Prepared := List (CurrencyPair × List Answer)

namespace Prepared

/-- Lays out answers for a pair, in place of those that were. -/
def layOut (p : Prepared) (pair : CurrencyPair) (answers : List Answer) : Prepared :=
  (pair, answers) :: p

/-- The next answer for a pair. -/
def next (p : Prepared) (pair : CurrencyPair) : Answer × Prepared :=
  match p.lookup pair with
  | some (answer :: later :: more) => (answer, p.layOut pair (later :: more))
  | some [answer] => (answer, p)
  | _ => (⟨0, .error .missing⟩, p)

/-- The source that answers as it is laid out. -/
def source : RateSource Prepared where
  ask := next

end Prepared

end CurrencyDesk
