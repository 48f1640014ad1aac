import CurrencyDesk.Desk.Call
import CurrencyDesk.Rate.Cache
/-!
# The desk, one event at a time

A desk has settings, a cache, a clock, and errands that wait for a source of rates. What
happens to it are events: a call comes in, the source answers an errand, a rate is
put into the cache from outside, time passes, the settings change. Between two events
nothing happens, so any number of calls may be in flight, and their answers may come
in any order.

A call that finds a fresh rate is answered from the cache; any other one asks the
source. A rate that the source answers is stored at the instant of the answer, and a
fault changes no entry.

Key definitions: `Desk`, `Desk.Event`, `Desk.Happening`, `Desk.step`, `Desk.run`.
-/

namespace CurrencyDesk

/-- The state of a desk: its clock counts milliseconds, `opened` the calls so far,
which are numbered from zero, and `waiting` holds the errands of those in flight. -/
structure Desk where
  settings : Settings
  cache : RateCache
  now : Nat
  opened : Nat
  waiting : List (Nat × Errand)

namespace Desk

/-- What happens to a desk. -/
inductive Event where
  | call (call : Call)
  | answer (number : Nat) (result : Except RateFault Binary64)
  | store (pair : CurrencyPair) (rate : Binary64)
  | pass (milliseconds : Nat)
  | adopt (settings : Settings)

/-- What a desk does: it asks the source for the rate of a pair, or answers a call. -/
inductive Happening where
  | asked (number : Nat) (pair : CurrencyPair)
  | replied (number : Nat) (reply : Reply)

/-- A desk with an empty cache that has not been asked anything. -/
def fresh (settings : Settings) (validity : Nat) : Desk :=
  ⟨settings, .empty validity, 0, 0, []⟩

/-- Takes a call: answers it, or asks the source. -/
def takeCall (d : Desk) (call : Call) : Desk × List Happening :=
  let number := d.opened
  let d := { d with opened := number + 1 }
  match call.errand? d.settings with
  | none => (d, [.replied number .nothing])
  | some errand =>
    match d.cache.fresh? d.now errand.pair with
    | some rate => (d, [.replied number (errand.reply (.ok rate))])
    | none => ({ d with waiting := d.waiting ++ [(number, errand)] }, [.asked number errand.pair])

/-- The number and the errand are no longer in flight. -/
def settle (d : Desk) (number : Nat) : Desk :=
  { d with waiting := d.waiting.filter (·.1 != number) }

/-- Takes the source's answer to an errand in flight: stores a rate, and answers the
call. -/
def takeAnswer (d : Desk) (number : Nat) (result : Except RateFault Binary64) :
    Desk × List Happening :=
  match d.waiting.lookup number with
  | none => (d, [])
  | some errand =>
    let d := d.settle number
    match result with
    | .ok rate =>
      ({ d with cache := d.cache.store d.now errand.pair rate },
        [.replied number (errand.reply (.ok rate))])
    | .error fault => (d, [.replied number (errand.reply (.error ⟨errand.pair, fault⟩))])

/-- What an event does to a desk, and what the desk does. -/
def step (d : Desk) : Event → Desk × List Happening
  | .call call => d.takeCall call
  | .answer number result => d.takeAnswer number result
  | .store pair rate => ({ d with cache := d.cache.store d.now pair rate }, [])
  | .pass milliseconds => ({ d with now := d.now + milliseconds }, [])
  | .adopt settings => ({ d with settings := settings }, [])

/-- What events do to a desk, one after the other. -/
def run (d : Desk) : List Event → Desk × List Happening
  | [] => (d, [])
  | event :: events =>
    let (d, happenings) := d.step event
    let (d, more) := d.run events
    (d, happenings ++ more)

end Desk

end CurrencyDesk
