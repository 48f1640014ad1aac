import CurrencyDesk.Desk.Step
import Mathlib.Algebra.Ring.Nat
import Mathlib.Data.List.Induction
/-!
# What is seen of a run

A run of a desk shows its events, and what the desk does at each of them. Nothing else
is needed to tell how much time has passed, which calls still wait for the source, and
which rates were written for which pair, when: a rate that is put into the cache, and a
rate that the source answers to a call that waits for it. The lists of writes that are
made here know nothing of the cache of the desk or of its list of errands, so that both
can be compared with them.

Numbers of calls tie the two views together (`Tally`): a call has an errand in flight
exactly when it has asked the source and has no reply.

Key definitions: `clock`, `repliesTo`, `openQuestion?`, `transcript`, `Write`, `writes`,
`Tally`.
Key theorems: `step_cases`, `run_append`, `tally_run`, `log_of_waiting`,
`writes_append`, `writes_sorted`.
-/

namespace CurrencyDesk

/-- What a lookup of a pair comes to when the source gives an answer. -/
def lookupResult (pair : CurrencyPair) (answer : Except RateFault Binary64) :
    Except LookupError Binary64 :=
  answer.mapError fun fault => ⟨pair, fault⟩

namespace Desk

/-! ### Time, questions and replies -/

/-- The milliseconds that an event takes. -/
def Event.duration : Event → Nat
  | .pass milliseconds => milliseconds
  | _ => 0

/-- The milliseconds that events take together. -/
def clock (events : List Event) : Nat :=
  (events.map Event.duration).sum

/-- The call that a happening belongs to. -/
def Happening.number : Happening → Nat
  | .asked number _ => number
  | .replied number _ => number

/-- The pairs that the source was asked for on behalf of a call. -/
def questionsOf (log : List Happening) (number : Nat) : List CurrencyPair :=
  log.filterMap fun
    | .asked n pair => if n = number then some pair else none
    | .replied .. => none

/-- The replies to a call. -/
def repliesTo (log : List Happening) (number : Nat) : List Reply :=
  log.filterMap fun
    | .asked .. => none
    | .replied n reply => if n = number then some reply else none

/-- The pair that a call is waiting for: the source was asked for it, and the call has
no reply yet. -/
def openQuestion? (log : List Happening) (number : Nat) : Option CurrencyPair :=
  if (repliesTo log number).isEmpty then (questionsOf log number).head? else none

/-- The first answer of the source to a call among events. -/
def firstAnswer? (number : Nat) (events : List Event) : Option (Except RateFault Binary64) :=
  events.findSome? fun
    | .answer n result => if n = number then some result else none
    | _ => none

@[simp] theorem clock_nil : clock [] = 0 := rfl

@[simp] theorem clock_append (events more : List Event) :
    clock (events ++ more) = clock events + clock more := by
  simp [clock]

@[simp] theorem clock_singleton (e : Event) : clock [e] = e.duration := by
  simp [clock]

@[simp] theorem questionsOf_append (log more : List Happening) (number : Nat) :
    questionsOf (log ++ more) number = questionsOf log number ++ questionsOf more number := by
  simp [questionsOf]

@[simp] theorem repliesTo_append (log more : List Happening) (number : Nat) :
    repliesTo (log ++ more) number = repliesTo log number ++ repliesTo more number := by
  simp [repliesTo]

@[simp] theorem questionsOf_asked (n : Nat) (pair : CurrencyPair) (number : Nat) :
    questionsOf [.asked n pair] number = if n = number then [pair] else [] := by
  by_cases h : n = number <;> simp [questionsOf, h]

@[simp] theorem questionsOf_replied (n : Nat) (reply : Reply) (number : Nat) :
    questionsOf [.replied n reply] number = [] := rfl

@[simp] theorem repliesTo_asked (n : Nat) (pair : CurrencyPair) (number : Nat) :
    repliesTo [.asked n pair] number = [] := rfl

@[simp] theorem repliesTo_replied (n : Nat) (reply : Reply) (number : Nat) :
    repliesTo [.replied n reply] number = if n = number then [reply] else [] := by
  by_cases h : n = number <;> simp [repliesTo, h]

/-- A happening of another call leaves the question of a call. -/
theorem openQuestion?_append_of_ne {log : List Happening} {h : Happening} {number : Nat}
    (hne : h.number ≠ number) : openQuestion? (log ++ [h]) number = openQuestion? log number := by
  cases h with
  | asked n pair =>
    have hn : n ≠ number := hne
    simp [openQuestion?, hn]
  | replied n reply =>
    have hn : n ≠ number := hne
    simp [openQuestion?, hn]

theorem openQuestion?_append_replied (log : List Happening) (number : Nat) (reply : Reply) :
    openQuestion? (log ++ [.replied number reply]) number = none := by
  simp [openQuestion?]

theorem questionsOf_eq_nil {log : List Happening} {number : Nat}
    (h : ∀ x ∈ log, x.number ≠ number) : questionsOf log number = [] := by
  rw [questionsOf, List.filterMap_eq_nil_iff]
  intro x hx
  cases x with
  | asked n pair => exact if_neg (h _ hx)
  | replied n reply => rfl

theorem repliesTo_eq_nil {log : List Happening} {number : Nat}
    (h : ∀ x ∈ log, x.number ≠ number) : repliesTo log number = [] := by
  rw [repliesTo, List.filterMap_eq_nil_iff]
  intro x hx
  cases x with
  | asked n pair => rfl
  | replied n reply => exact if_neg (h _ hx)

/-! ### Steps and runs -/

variable (d : Desk)

/-- An answer to an errand in flight settles it: a rate is stored and a fault is not,
and the call is replied to. -/
theorem step_answer_of_waiting {number : Nat} {errand : Errand}
    (h : d.waiting.lookup number = some errand) (result : Except RateFault Binary64) :
    d.step (.answer number result) =
      ({ d.settle number with
          cache := match result with
            | .ok rate => d.cache.store d.now errand.pair rate
            | .error _ => d.cache },
        [.replied number (errand.reply (lookupResult errand.pair result))]) := by
  simp only [step, takeAnswer, h]
  cases result with
  | ok rate => rfl
  | error fault => rfl

theorem step_answer_of_not_waiting {number : Nat} (h : d.waiting.lookup number = none)
    (result : Except RateFault Binary64) : d.step (.answer number result) = (d, []) := by
  simp only [step, takeAnswer, h]

theorem step_call_of_no_errand {call : Call} (h : call.errand? d.settings = none) :
    d.step (.call call) =
      ({ d with opened := d.opened + 1 }, [.replied d.opened .nothing]) := by
  simp only [step, takeCall, h]

theorem step_call_congr {call other : Call}
    (h : call.errand? d.settings = other.errand? d.settings) :
    d.step (.call call) = d.step (.call other) := by
  simp only [step, takeCall, h]

theorem step_call_of_fresh {call : Call} {errand : Errand} {rate : Binary64}
    (h : call.errand? d.settings = some errand)
    (hf : d.cache.fresh? d.now errand.pair = some rate) :
    d.step (.call call) =
      ({ d with opened := d.opened + 1 }, [.replied d.opened (errand.reply (.ok rate))]) := by
  simp only [step, takeCall, h, hf]

theorem step_call_of_not_fresh {call : Call} {errand : Errand}
    (h : call.errand? d.settings = some errand)
    (hf : d.cache.fresh? d.now errand.pair = none) :
    d.step (.call call) =
      ({ d with opened := d.opened + 1, waiting := d.waiting ++ [(d.opened, errand)] },
        [.asked d.opened errand.pair]) := by
  simp only [step, takeCall, h, hf]

/-- What a step can do, case by case: every proof about a step starts from these. -/
theorem step_cases {motive : Event → Prop}
    (no_errand : ∀ call, call.errand? d.settings = none →
      d.step (.call call) =
        ({ d with opened := d.opened + 1 }, [.replied d.opened .nothing]) →
      motive (.call call))
    (fresh : ∀ call errand rate, call.errand? d.settings = some errand →
      d.cache.fresh? d.now errand.pair = some rate →
      d.step (.call call) =
        ({ d with opened := d.opened + 1 }, [.replied d.opened (errand.reply (.ok rate))]) →
      motive (.call call))
    (not_fresh : ∀ call errand, call.errand? d.settings = some errand →
      d.cache.fresh? d.now errand.pair = none →
      d.step (.call call) =
        ({ d with opened := d.opened + 1, waiting := d.waiting ++ [(d.opened, errand)] },
          [.asked d.opened errand.pair]) →
      motive (.call call))
    (not_waiting : ∀ number result, d.waiting.lookup number = none →
      d.step (.answer number result) = (d, []) → motive (.answer number result))
    (waiting : ∀ number result errand, d.waiting.lookup number = some errand →
      d.step (.answer number result) =
        ({ d.settle number with
            cache := match result with
              | .ok rate => d.cache.store d.now errand.pair rate
              | .error _ => d.cache },
          [.replied number (errand.reply (lookupResult errand.pair result))]) →
      motive (.answer number result))
    (store : ∀ pair rate, motive (.store pair rate))
    (pass : ∀ milliseconds, motive (.pass milliseconds))
    (adopt : ∀ settings, motive (.adopt settings)) (e : Event) : motive e := by
  cases e with
  | call call =>
    rcases he : call.errand? d.settings with _ | errand
    · exact no_errand call he (step_call_of_no_errand d he)
    · rcases hf : d.cache.fresh? d.now errand.pair with _ | rate
      · exact not_fresh call errand he hf (step_call_of_not_fresh d he hf)
      · exact fresh call errand rate he hf (step_call_of_fresh d he hf)
  | answer number result =>
    rcases hw : d.waiting.lookup number with _ | errand
    · exact not_waiting number result hw (step_answer_of_not_waiting d hw result)
    · exact waiting number result errand hw (step_answer_of_waiting d hw result)
  | store pair rate => exact store pair rate
  | pass milliseconds => exact pass milliseconds
  | adopt settings => exact adopt settings

theorem run_cons (e : Event) (events : List Event) :
    d.run (e :: events) =
      (((d.step e).1.run events).1, (d.step e).2 ++ ((d.step e).1.run events).2) := rfl

theorem run_append (events more : List Event) :
    d.run (events ++ more) =
      (((d.run events).1.run more).1, (d.run events).2 ++ ((d.run events).1.run more).2) := by
  induction events generalizing d with
  | nil => simp [run]
  | cons e events ih => simp [run_cons, ih]

theorem run_append_event (events : List Event) (e : Event) :
    d.run (events ++ [e]) =
      (((d.run events).1.step e).1, (d.run events).2 ++ ((d.run events).1.step e).2) := by
  rw [run_append, run_cons]
  simp [run]

theorem now_step (e : Event) : (d.step e).1.now = d.now + e.duration := by
  cases e using step_cases d with
  | no_errand call he hs => rw [hs]; rfl
  | fresh call errand rate he hf hs => rw [hs]; rfl
  | not_fresh call errand he hf hs => rw [hs]; rfl
  | not_waiting number result hw hs => rw [hs]; rfl
  | waiting number result errand hw hs => rw [hs]; rfl
  | store pair rate => rfl
  | pass milliseconds => rfl
  | adopt settings => rfl

theorem now_run (events : List Event) : (d.run events).1.now = d.now + clock events := by
  induction events using List.reverseRecOn with
  | nil => rfl
  | append_singleton events e ih =>
    rw [run_append_event, now_step, ih, clock_append, clock_singleton, Nat.add_assoc]

/-! ### Numbers of calls

Calls are numbered as they come in, so the number of the next call belongs to no
happening, and the number of an errand in flight to no reply. -/

/-- The numbers that a desk keeps agree with what is seen of it: every happening belongs
to a call that came in, and an errand is in flight exactly while its call waits for the
source. -/
structure Tally (opened : Nat) (waiting : List (Nat × Errand)) (log : List Happening) : Prop where
  number_lt : ∀ h ∈ log, h.number < opened
  question_eq : ∀ number, openQuestion? log number = (waiting.lookup number).map Errand.pair

theorem lookup_filter_ne {α : Type} (l : List (Nat × α)) (number n : Nat) :
    (l.filter (·.1 != number)).lookup n = if n = number then none else l.lookup n := by
  induction l with
  | nil => simp
  | cons p l ih =>
    obtain ⟨k, v⟩ := p
    by_cases hk : k = number
    · subst hk
      by_cases hn : n = k
      · rw [if_pos hn] at ih
        simpa [hn] using ih
      · simp [hn, ih, List.lookup_cons, beq_false_of_ne hn]
    · by_cases hn : n = k
      · subst hn
        simp [hk]
      · simp [hk, ih, List.lookup_cons, beq_false_of_ne hn]

theorem lookup_append_of_ne {α : Type} (l : List (Nat × α)) {number n : Nat} (h : n ≠ number)
    (value : α) : (l ++ [(number, value)]).lookup n = l.lookup n := by
  rw [List.lookup_append, List.lookup_cons, beq_false_of_ne h, List.lookup_nil, Option.or_none]

section Tally

variable {opened : Nat} {waiting : List (Nat × Errand)} {log : List Happening}

theorem Tally.nil : Tally 0 [] [] :=
  ⟨by simp, fun _ => rfl⟩

theorem Tally.openQuestion?_of_le (h : Tally opened waiting log) {number : Nat}
    (hle : opened ≤ number) : openQuestion? log number = none := by
  have hne : ∀ x ∈ log, x.number ≠ number := fun x hx =>
    Nat.ne_of_lt (Nat.lt_of_lt_of_le (h.number_lt x hx) hle)
  simp [openQuestion?, questionsOf_eq_nil hne]

theorem Tally.lookup_of_le (h : Tally opened waiting log) {number : Nat} (hle : opened ≤ number) :
    waiting.lookup number = none := by
  have hq := h.question_eq number
  rw [h.openQuestion?_of_le hle] at hq
  exact Option.map_eq_none_iff.mp hq.symm

theorem Tally.lookup_opened (h : Tally opened waiting log) : waiting.lookup opened = none :=
  h.lookup_of_le (Nat.le_refl opened)

theorem Tally.reply (h : Tally opened waiting log) (reply : Reply) :
    Tally (opened + 1) waiting (log ++ [.replied opened reply]) := by
  refine ⟨fun x hx => ?_, fun n => ?_⟩
  · rcases List.mem_append.mp hx with hx | hx
    · exact Nat.lt_succ_of_lt (h.number_lt x hx)
    · rw [List.mem_singleton.mp hx]
      exact Nat.lt_succ_self opened
  · by_cases hn : opened = n
    · subst hn
      rw [openQuestion?_append_replied, h.lookup_opened]
      rfl
    · have hne : (Happening.replied opened reply).number ≠ n := hn
      rw [openQuestion?_append_of_ne hne, h.question_eq]

theorem Tally.ask (h : Tally opened waiting log) (errand : Errand) :
    Tally (opened + 1) (waiting ++ [(opened, errand)]) (log ++ [.asked opened errand.pair]) := by
  refine ⟨fun x hx => ?_, fun n => ?_⟩
  · rcases List.mem_append.mp hx with hx | hx
    · exact Nat.lt_succ_of_lt (h.number_lt x hx)
    · rw [List.mem_singleton.mp hx]
      exact Nat.lt_succ_self opened
  · by_cases hn : opened = n
    · subst hn
      have hne : ∀ x ∈ log, x.number ≠ opened := fun x hx => Nat.ne_of_lt (h.number_lt x hx)
      simp [openQuestion?, questionsOf_eq_nil hne, repliesTo_eq_nil hne, List.lookup_append,
        h.lookup_opened]
    · have hne : (Happening.asked opened errand.pair).number ≠ n := hn
      rw [openQuestion?_append_of_ne hne, h.question_eq, lookup_append_of_ne _ (Ne.symm hn)]

theorem Tally.settle (h : Tally opened waiting log) {number : Nat} {errand : Errand}
    (hw : waiting.lookup number = some errand) (reply : Reply) :
    Tally opened (waiting.filter (·.1 != number)) (log ++ [.replied number reply]) := by
  refine ⟨fun x hx => ?_, fun n => ?_⟩
  · rcases List.mem_append.mp hx with hx | hx
    · exact h.number_lt x hx
    · rw [List.mem_singleton.mp hx]
      by_contra hlt
      have hne : ∀ x ∈ log, x.number ≠ number := fun x hx hxn =>
        hlt (hxn ▸ h.number_lt x hx)
      have hq := h.question_eq number
      simp [openQuestion?, questionsOf_eq_nil hne, hw] at hq
  · rw [lookup_filter_ne]
    by_cases hn : number = n
    · subst hn
      rw [openQuestion?_append_replied, if_pos rfl]
      rfl
    · have hne : (Happening.replied number reply).number ≠ n := hn
      rw [openQuestion?_append_of_ne hne, h.question_eq, if_neg (Ne.symm hn)]

end Tally

theorem tally_step {log : List Happening} (h : Tally d.opened d.waiting log) (e : Event) :
    Tally (d.step e).1.opened (d.step e).1.waiting (log ++ (d.step e).2) := by
  cases e using step_cases d with
  | no_errand call he hs =>
    rw [hs]
    exact h.reply .nothing
  | fresh call errand rate he hf hs =>
    rw [hs]
    exact h.reply (errand.reply (.ok rate))
  | not_fresh call errand he hf hs =>
    rw [hs]
    exact h.ask errand
  | not_waiting number result hw hs =>
    rw [hs, List.append_nil]
    exact h
  | waiting number result errand hw hs =>
    rw [hs]
    exact h.settle hw _
  | store pair rate => simpa [step] using h
  | pass milliseconds => simpa [step] using h
  | adopt settings => simpa [step] using h

/-- A desk keeps its numbers throughout every run from its start. -/
theorem tally_run (settings : Settings) (validity : Nat) (events : List Event) :
    Tally ((fresh settings validity).run events).1.opened
      ((fresh settings validity).run events).1.waiting
      ((fresh settings validity).run events).2 := by
  induction events using List.reverseRecOn with
  | nil => exact Tally.nil
  | append_singleton events e ih =>
    rw [run_append_event]
    exact tally_step _ ih e

/-! ### The rest of a call

What a desk does about a call that has come in already is settled by what it waits for:
nothing more is done when it is replied to, and when it waits for the source, the first
answer is passed on. -/

/-- An event that is no answer to a call leaves it as it is. -/
theorem step_of_other {number : Nat} (hlt : number < d.opened) {e : Event}
    (he : ∀ result, e ≠ .answer number result) :
    (d.step e).1.waiting.lookup number = d.waiting.lookup number ∧
      number < (d.step e).1.opened ∧ ∀ h ∈ (d.step e).2, h.number ≠ number := by
  have hne : d.opened ≠ number := Nat.ne_of_gt hlt
  cases e using step_cases d with
  | no_errand call hc hs =>
    rw [hs]
    exact ⟨rfl, Nat.lt_succ_of_lt hlt, by simpa [Happening.number] using hne⟩
  | fresh call errand rate hc hf hs =>
    rw [hs]
    exact ⟨rfl, Nat.lt_succ_of_lt hlt, by simpa [Happening.number] using hne⟩
  | not_fresh call errand hc hf hs =>
    rw [hs]
    exact ⟨lookup_append_of_ne _ hne.symm _, Nat.lt_succ_of_lt hlt,
      by simpa [Happening.number] using hne⟩
  | not_waiting n result hw hs =>
    rw [hs]
    exact ⟨rfl, hlt, by simp⟩
  | waiting n result errand hw hs =>
    have hn : n ≠ number := fun hn => he result (by rw [hn])
    rw [hs]
    refine ⟨?_, hlt, by simpa [Happening.number] using hn⟩
    simp only [settle]
    rw [lookup_filter_ne, if_neg hn.symm]
  | store pair rate => exact ⟨rfl, hlt, by simp [step]⟩
  | pass milliseconds => exact ⟨rfl, hlt, by simp [step]⟩
  | adopt settings => exact ⟨rfl, hlt, by simp [step]⟩

theorem filter_eq_nil_of_number_ne {log : List Happening} {number : Nat}
    (h : ∀ x ∈ log, x.number ≠ number) : log.filter (·.number = number) = [] := by
  simpa [List.filter_eq_nil_iff] using h

theorem firstAnswer?_cons_of_other {number : Nat} {e : Event}
    (he : ∀ result, e ≠ .answer number result) (events : List Event) :
    firstAnswer? number (e :: events) = firstAnswer? number events := by
  cases e with
  | answer n result =>
    have hn : n ≠ number := fun hn => he result (by rw [hn])
    simp [firstAnswer?, hn]
  | _ => simp [firstAnswer?]

/-- Nothing more is done about a call that is not in flight. -/
theorem log_of_settled {number : Nat} (hlt : number < d.opened)
    (hw : d.waiting.lookup number = none) (events : List Event) :
    (d.run events).2.filter (·.number = number) = [] := by
  induction events generalizing d with
  | nil => rfl
  | cons e events ih =>
    rw [run_cons, List.filter_append]
    by_cases he : ∃ result, e = .answer number result
    · obtain ⟨result, rfl⟩ := he
      rw [step_answer_of_not_waiting d hw]
      exact ih d hlt hw
    · obtain ⟨hl, ho, hn⟩ := step_of_other d hlt (not_exists.mp he)
      rw [filter_eq_nil_of_number_ne hn, ih _ ho (hl.trans hw), List.append_nil]

/-- A call in flight is replied to once, with the first answer of the source. -/
theorem log_of_waiting {number : Nat} {errand : Errand} (hlt : number < d.opened)
    (hw : d.waiting.lookup number = some errand) (events : List Event) :
    (d.run events).2.filter (·.number = number) =
      ((firstAnswer? number events).map fun result =>
        .replied number (errand.reply (lookupResult errand.pair result))).toList := by
  induction events generalizing d with
  | nil => rfl
  | cons e events ih =>
    rw [run_cons, List.filter_append]
    by_cases he : ∃ result, e = .answer number result
    · obtain ⟨result, rfl⟩ := he
      rw [step_answer_of_waiting d hw, log_of_settled]
      · simp [firstAnswer?, Happening.number]
      · exact hlt
      · simp only [settle]
        rw [lookup_filter_ne, if_pos rfl]
    · obtain ⟨hl, ho, hn⟩ := step_of_other d hlt (not_exists.mp he)
      rw [filter_eq_nil_of_number_ne hn, ih _ ho (hl.trans hw),
        firstAnswer?_cons_of_other (not_exists.mp he), List.nil_append]

theorem log_of_call_of_fresh {log : List Happening} (h : Tally d.opened d.waiting log)
    {call : Call} {errand : Errand} {rate : Binary64}
    (he : call.errand? d.settings = some errand)
    (hf : d.cache.fresh? d.now errand.pair = some rate) (events : List Event) :
    (d.run (.call call :: events)).2.filter (·.number = d.opened) =
      [.replied d.opened (errand.reply (.ok rate))] := by
  have hrest := log_of_settled { d with opened := d.opened + 1 } (Nat.lt_succ_self _)
    h.lookup_opened events
  rw [run_cons, step_call_of_fresh d he hf, List.filter_append, hrest]
  simp [Happening.number]

/-- All that is done about a call that finds no fresh rate is to ask the source once, and
to reply when it answers. -/
theorem log_of_call_of_not_fresh {log : List Happening} (h : Tally d.opened d.waiting log)
    {call : Call} {errand : Errand} (he : call.errand? d.settings = some errand)
    (hf : d.cache.fresh? d.now errand.pair = none) (events : List Event) :
    (d.run (.call call :: events)).2.filter (·.number = d.opened) =
      .asked d.opened errand.pair ::
        ((firstAnswer? d.opened events).map fun result =>
          .replied d.opened (errand.reply (lookupResult errand.pair result))).toList := by
  have hw : (d.waiting ++ [(d.opened, errand)]).lookup d.opened = some errand := by
    simp [List.lookup_append, h.lookup_opened]
  have hrest := log_of_waiting
    { d with opened := d.opened + 1, waiting := d.waiting ++ [(d.opened, errand)] }
    (Nat.lt_succ_self _) hw events
  rw [run_cons, step_call_of_not_fresh d he hf, List.filter_append, hrest]
  simp [Happening.number]

/-! ### Writes -/

/-- A rate that was written for a pair, and when. -/
structure Write where
  pair : CurrencyPair
  rate : Binary64
  time : Nat
deriving DecidableEq

/-- What an event writes at an instant, by what was seen before. -/
def Event.write? (log : List Happening) (time : Nat) : Event → Option Write
  | .store pair rate => some ⟨pair, rate, time⟩
  | .answer number (.ok rate) => (openQuestion? log number).map fun pair => ⟨pair, rate, time⟩
  | _ => none

/-- What is seen of a run: its events, each with what the desk does at it. -/
def transcript (d : Desk) : List Event → List (Event × List Happening)
  | [] => []
  | e :: events => (e, (d.step e).2) :: (d.step e).1.transcript events

/-- The writes that a transcript shows, where `log` was seen before and `time` has
passed. -/
def writesFrom (log : List Happening) (time : Nat) : List (Event × List Happening) → List Write
  | [] => []
  | (e, happenings) :: rest =>
    (e.write? log time).toList ++ writesFrom (log ++ happenings) (time + e.duration) rest

/-- The writes that the transcript of a whole run shows, in their order. -/
def writes (seen : List (Event × List Happening)) : List Write :=
  writesFrom [] 0 seen

theorem writesFrom_transcript_append (log : List Happening) (time : Nat)
    (events more : List Event) :
    writesFrom log time (d.transcript (events ++ more)) =
      writesFrom log time (d.transcript events) ++
        writesFrom (log ++ (d.run events).2) (time + clock events)
          ((d.run events).1.transcript more) := by
  induction events generalizing d log time with
  | nil => simp [transcript, writesFrom, run]
  | cons e events ih =>
    have hc : clock (e :: events) = e.duration + clock events := by simp [clock]
    simp only [List.cons_append, transcript, writesFrom, ih, run_cons, hc, List.append_assoc,
      Nat.add_assoc]

theorem writes_append (events more : List Event) :
    writes (d.transcript (events ++ more)) =
      writes (d.transcript events) ++
        writesFrom (d.run events).2 (clock events) ((d.run events).1.transcript more) := by
  simpa [writes] using writesFrom_transcript_append d [] 0 events more

/-- The last event of a run adds what it writes, at the instant that the run has come
to. -/
theorem writes_append_event (events : List Event) (e : Event) :
    writes (d.transcript (events ++ [e])) =
      writes (d.transcript events) ++ (e.write? (d.run events).2 (clock events)).toList := by
  rw [writes_append]
  simp [transcript, writesFrom]

theorem time_of_write? {log : List Happening} {time : Nat} {e : Event} {w : Write}
    (h : e.write? log time = some w) : w.time = time := by
  cases e with
  | store pair rate =>
    cases h
    rfl
  | answer number result =>
    cases result with
    | ok rate =>
      obtain ⟨pair, -, rfl⟩ := Option.map_eq_some_iff.mp h
      rfl
    | error fault => cases h
  | call call => cases h
  | pass milliseconds => cases h
  | adopt settings => cases h

theorem write_time_le (events : List Event) :
    ∀ w ∈ writes (d.transcript events), w.time ≤ clock events := by
  induction events using List.reverseRecOn with
  | nil => simp [writes, transcript, writesFrom]
  | append_singleton events e ih =>
    intro w hw
    rw [writes_append_event, List.mem_append] at hw
    rw [clock_append]
    rcases hw with hw | hw
    · exact Nat.le_add_right_of_le (ih w hw)
    · rw [time_of_write? (Option.mem_toList.mp hw)]
      exact Nat.le_add_right _ _

theorem writes_sorted (events : List Event) :
    (writes (d.transcript events)).Pairwise fun w w' => w.time ≤ w'.time := by
  induction events using List.reverseRecOn with
  | nil => simp [writes, transcript, writesFrom]
  | append_singleton events e ih =>
    rw [writes_append_event, List.pairwise_append]
    refine ⟨ih, ?_, fun w hw w' hw' => ?_⟩
    · cases e.write? (d.run events).2 (clock events) <;> simp
    · rw [time_of_write? (Option.mem_toList.mp hw')]
      exact write_time_le d events w hw

end Desk

end CurrencyDesk
