/-!
# Powers of natural numbers

The number format, the numerals and the numbers of hosts are all computed with powers
of natural numbers. The power is the core library's, also where a richer algebra is in
scope, so that what is computed and what is reasoned about is one and the same term.

Key definitions: `corePow`.
-/

namespace CurrencyDesk

/-- The power of natural numbers that the library computes with. -/
abbrev corePow : Pow Nat Nat :=
  instPowNat

end CurrencyDesk
