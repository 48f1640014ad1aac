import CurrencyDesk.Binary64.Basic
import CurrencyDesk.Currency.Pair
/-!
# The cache of rates

Each pair has at most one entry: the rate that was stored last, and the instant. An
entry is fresh while its age is below the validity of the cache, and only a fresh one
is served; a stale one stays until another takes its place. The view of a cache is
`stored?`, and one lemma says what storing does to it.

Key definitions: `RateCache`, `RateCache.stored?`, `RateCache.fresh?`, `RateCache.store`.
Key theorems: `RateCache.stored?_store_self`, `RateCache.stored?_store_of_ne`.
-/

namespace CurrencyDesk

/-- A rate and the instant at which it was stored, in milliseconds. -/
structure CacheEntry where
  rate : Binary64
  storedAt : Nat
deriving DecidableEq

/-- How long an entry has been in the cache. -/
def CacheEntry.age (e : CacheEntry) (now : Nat) : Nat :=
  now - e.storedAt

/-- The rates in store, and for how many milliseconds each may be served. -/
structure RateCache where
  validity : Nat
  entries : List (CurrencyPair × CacheEntry)
deriving DecidableEq

/-- The validity where nothing else is asked for, an hour. -/
def RateCache.defaultValidity : Nat := 3600000

namespace RateCache

/-- A cache without entries. -/
def empty (validity : Nat) : RateCache :=
  ⟨validity, []⟩

/-- The entry of a pair, fresh or stale. -/
def stored? (c : RateCache) (pair : CurrencyPair) : Option CacheEntry :=
  c.entries.lookup pair

/-- Whether an entry may be served. -/
def isFresh (c : RateCache) (now : Nat) (e : CacheEntry) : Bool :=
  decide (e.age now < c.validity)

/-- The rate of a pair, if its entry may be served. -/
def fresh? (c : RateCache) (now : Nat) (pair : CurrencyPair) : Option Binary64 :=
  ((c.stored? pair).filter (c.isFresh now)).map (·.rate)

/-- Puts a value in the place that a key has in a list, or at its end. -/
def replace [DecidableEq α] (key : α) (value : β) : List (α × β) → List (α × β)
  | [] => [(key, value)]
  | (k, v) :: rest => if k = key then (key, value) :: rest else (k, v) :: replace key value rest

/-- Stores the rate of a pair at an instant. -/
def store (c : RateCache) (now : Nat) (pair : CurrencyPair) (rate : Binary64) : RateCache :=
  { c with entries := replace pair ⟨rate, now⟩ c.entries }

/-- The number of pairs with an entry. -/
def size (c : RateCache) : Nat :=
  c.entries.length

theorem lookup_replace_self [DecidableEq α] (key : α) (value : β) (l : List (α × β)) :
    (replace key value l).lookup key = some value := by
  induction l with
  | nil => simp [replace]
  | cons p l ih =>
    obtain ⟨k, v⟩ := p
    by_cases h : k = key
    · simp [replace, h]
    · simp [replace, h, List.lookup_cons, ih, beq_false_of_ne (Ne.symm h)]

theorem lookup_replace_of_ne [DecidableEq α] {key other : α} (h : other ≠ key) (value : β)
    (l : List (α × β)) : (replace key value l).lookup other = l.lookup other := by
  induction l with
  | nil => simp [replace, List.lookup_cons, beq_false_of_ne h]
  | cons p l ih =>
    obtain ⟨k, v⟩ := p
    by_cases hk : k = key
    · subst hk
      simp [replace, List.lookup_cons, beq_false_of_ne h]
    · simp [replace, hk, List.lookup_cons, ih]

@[simp] theorem stored?_empty (validity : Nat) (pair : CurrencyPair) :
    (empty validity).stored? pair = none := rfl

theorem stored?_store_self (c : RateCache) (now : Nat) (pair : CurrencyPair) (rate : Binary64) :
    (c.store now pair rate).stored? pair = some ⟨rate, now⟩ :=
  lookup_replace_self ..

theorem stored?_store_of_ne (c : RateCache) (now : Nat) {pair other : CurrencyPair}
    (h : other ≠ pair) (rate : Binary64) :
    (c.store now pair rate).stored? other = c.stored? other :=
  lookup_replace_of_ne h ..

end RateCache

end CurrencyDesk
