import CurrencyDesk.Desk.Step
import CurrencyDesk.Rate.Source
/-!
# Serving calls with a source

A desk that is given several calls at once takes them in order, each until the source
has to be waited for; an answer without delay is there at once. The answers that take
time then come in the order in which they are due, those due together in the order of
the calls, and the clock moves on to each. All of this is a run of events of the desk,
which the service performs one after the other, so what holds of every run holds of
it.

Key definitions: `Service`, `Service.take`, `Service.close`, `Desk.serve`.
-/

namespace CurrencyDesk

/-- An answer on its way: the instant at which it arrives, and for which call. -/
structure Due where
  time : Nat
  number : Nat
  result : Except RateFault Binary64

/-- Puts an answer in its place among those that are on their way, behind those that
arrive no later. -/
def Due.insert (due : Due) : List Due → List Due
  | [] => [due]
  | first :: rest =>
    if first.time ≤ due.time then first :: due.insert rest else due :: first :: rest

/-- A desk at work with a source: the answers on their way, and what the desk has
done. -/
structure Service (σ : Type) where
  desk : Desk
  state : σ
  due : List Due
  log : List Desk.Happening

namespace Service

variable {σ : Type}

/-- Lets an event happen to the desk. -/
def happen (s : Service σ) (event : Desk.Event) : Service σ :=
  let (desk, happenings) := s.desk.step event
  { s with desk := desk, log := s.log ++ happenings }

/-- Passes an answer on, now or when it arrives. -/
def pass (s : Service σ) (number : Nat) (answer : Answer) : Service σ :=
  if answer.delay = 0 then s.happen (.answer number answer.result)
  else { s with due := Due.insert ⟨s.desk.now + answer.delay, number, answer.result⟩ s.due }

/-- Takes a call, and asks the source if the desk does. -/
def take (source : RateSource σ) (s : Service σ) (call : Call) : Service σ :=
  let number := s.desk.opened
  let s := s.happen (.call call)
  match s.desk.waiting.lookup number with
  | none => s
  | some errand =>
    let (answer, state) := source.ask s.state errand.pair
    { s with state := state }.pass number answer

/-- Lets an answer arrive. -/
def arrive (s : Service σ) (due : Due) : Service σ :=
  (s.happen (.pass (due.time - s.desk.now))).happen (.answer due.number due.result)

/-- Lets all answers arrive that are on their way. -/
def close (s : Service σ) : Service σ :=
  s.due.foldl arrive { s with due := [] }

/-- The pairs that the source was asked for, in order. -/
def asked (s : Service σ) : List CurrencyPair :=
  s.log.filterMap fun
    | .asked _ pair => some pair
    | .replied .. => none

/-- The reply to a call. -/
def reply? (s : Service σ) (number : Nat) : Option Reply :=
  s.log.findSome? fun
    | .replied n reply => if n = number then some reply else none
    | .asked .. => none

end Service

/-- What came of calls: the replies in the order of the calls, the pairs that the
source was asked for, and the desk and the source afterwards. -/
structure Served (σ : Type) where
  replies : List Reply
  asked : List CurrencyPair
  desk : Desk
  state : σ

/-- Serves calls that come in together. -/
def Desk.serve {σ : Type} (d : Desk) (source : RateSource σ) (state : σ) (calls : List Call) :
    Served σ :=
  let s := (calls.foldl (Service.take source) ⟨d, state, [], []⟩).close
  { replies := (List.range calls.length).filterMap fun n => s.reply? (d.opened + n)
    asked := s.asked
    desk := s.desk
    state := s.state }

end CurrencyDesk
