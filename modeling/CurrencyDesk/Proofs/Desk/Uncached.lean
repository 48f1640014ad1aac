import CurrencyDesk.Proofs.Desk.Ledger
/-!
# With a steady source the cache cannot be seen

A source is steady when it answers every question about a pair alike, with one rate or
with one fault. Beside the desk stands one that has no cache and asks the source at every
call. Both are given the same calls and the same changes of the settings; how much time
passes, and when the source answers, may differ between the two. Then both reply the same
to every call, and the desk with a cache asks no more often for any pair.

What a call is to be replied depends on the calls, the settings and the source alone
(`expected`). Both desks keep the same ledger (`Accounted`): a call in flight waits for its
errand, and any other one has been replied to once, as expected. For the cached desk this
rests on every entry being what the source answers for its pair (`Faithful`).

Key definitions: `Uncached`, `Uncached.step`, `Steady`, `requests`, `expected`, `Accounted`,
`Faithful`, `CachedLedger`, `Uncached.Ledger`.
Key theorems: `CachedLedger.step`, `cachedLedger_run`, `Uncached.Ledger.step`,
`Uncached.ledger_run`, `replies_eq_uncached`.
-/

namespace CurrencyDesk

open Desk (Event Happening Tally)

/-! ### A desk without a cache -/

/-- The state of a desk that asks the source at every call. -/
structure Uncached where
  settings : Settings
  opened : Nat
  waiting : List (Nat × Errand)

namespace Uncached

/-- A desk that has not been asked anything. -/
def fresh (settings : Settings) : Uncached :=
  ⟨settings, 0, []⟩

/-- Takes a call: answers it when it is no errand, and asks the source otherwise. -/
def takeCall (d : Uncached) (call : Call) : Uncached × List Happening :=
  match call.errand? d.settings with
  | none => ({ d with opened := d.opened + 1 }, [.replied d.opened .nothing])
  | some errand =>
    ({ d with opened := d.opened + 1, waiting := d.waiting ++ [(d.opened, errand)] },
      [.asked d.opened errand.pair])

/-- Takes the source's answer to an errand in flight and passes it on. -/
def takeAnswer (d : Uncached) (number : Nat) (answer : Except RateFault Binary64) :
    Uncached × List Happening :=
  match d.waiting.lookup number with
  | none => (d, [])
  | some errand =>
    ({ d with waiting := d.waiting.filter (·.1 != number) },
      [.replied number (errand.reply (lookupResult errand.pair answer))])

/-- What an event does to a desk without a cache, and what the desk does. -/
def step (d : Uncached) : Event → Uncached × List Happening
  | .call call => d.takeCall call
  | .answer number answer => d.takeAnswer number answer
  | .adopt settings => ({ d with settings := settings }, [])
  | .store .. => (d, [])
  | .pass _ => (d, [])

/-- What events do to a desk without a cache, one after the other. -/
def run (d : Uncached) : List Event → Uncached × List Happening
  | [] => (d, [])
  | e :: events =>
    let (d, happenings) := d.step e
    let (d, more) := d.run events
    (d, happenings ++ more)

theorem run_cons (d : Uncached) (e : Event) (events : List Event) :
    d.run (e :: events) =
      (((d.step e).1.run events).1, (d.step e).2 ++ ((d.step e).1.run events).2) := rfl

theorem run_append_event (d : Uncached) (events : List Event) (e : Event) :
    d.run (events ++ [e]) =
      (((d.run events).1.step e).1, (d.run events).2 ++ ((d.run events).1.step e).2) := by
  induction events generalizing d with
  | nil => simp [run]
  | cons x events ih => simp [run_cons, ih]

end Uncached

namespace Desk

/-! ### Requests and steady sources -/

/-- A call, or a change of the settings. -/
def Event.isRequest : Event → Bool
  | .call _ => true
  | .adopt _ => true
  | _ => false

/-- What a desk is asked for among events: the calls and the changes of the settings. -/
def requests (events : List Event) : List Event :=
  events.filter (·.isRequest)

/-- Every answer to a question about a pair is the one that `rates` has for it, in a run
whose log after some events is given by `logOf`. -/
def Steady (rates : CurrencyPair → Except RateFault Binary64)
    (logOf : List Event → List Happening) (events : List Event) : Prop :=
  ∀ before number answer after, events = before ++ .answer number answer :: after →
    ∀ pair, openQuestion? (logOf before) number = some pair → answer = rates pair

/-- How often the source was asked for a pair. -/
def timesAsked (log : List Happening) (pair : CurrencyPair) : Nat :=
  log.countP fun
    | .asked _ p => p = pair
    | .replied .. => false

section Steady

variable {rates : CurrencyPair → Except RateFault Binary64} {logOf : List Event → List Happening}
  {events : List Event}

theorem Steady.init {e : Event} (h : Steady rates logOf (events ++ [e])) :
    Steady rates logOf events := by
  intro before number answer after he
  refine h before number answer (after ++ [e]) ?_
  rw [he, List.append_assoc, List.cons_append]

theorem Steady.last {number : Nat} {answer : Except RateFault Binary64} {pair : CurrencyPair}
    (h : Steady rates logOf (events ++ [.answer number answer]))
    (hq : openQuestion? (logOf events) number = some pair) : answer = rates pair :=
  h events number answer [] rfl pair hq

theorem Steady.of_forall_mem
    (h : ∀ number answer, .answer number answer ∈ events → ∀ pair, answer = rates pair) :
    Steady rates logOf events := by
  intro before number answer after he pair _
  refine h number answer ?_ pair
  rw [he]
  exact List.mem_append_right before List.mem_cons_self

end Steady

/-! ### What the calls come to -/

/-- The settings after events. -/
def adopted (settings : Settings) : List Event → Settings
  | [] => settings
  | .adopt settings :: events => adopted settings events
  | _ :: events => adopted settings events

/-- The errand that an event brings, when it is a call. -/
def Event.errand (settings : Settings) : Event → List (Option Errand)
  | .call c => [c.errand? settings]
  | _ => []

/-- The errands that the calls among events come to, in order. -/
def errands (settings : Settings) : List Event → List (Option Errand)
  | [] => []
  | e :: events => e.errand settings ++ errands (adopted settings [e]) events

theorem adopted_cons (settings : Settings) (e : Event) (events : List Event) :
    adopted settings (e :: events) = adopted (adopted settings [e]) events := by
  cases e <;> rfl

theorem adopted_append (settings : Settings) (events more : List Event) :
    adopted settings (events ++ more) = adopted (adopted settings events) more := by
  induction events generalizing settings with
  | nil => rfl
  | cons e events ih => rw [List.cons_append, adopted_cons, ih, ← adopted_cons]

theorem errands_append_event (settings : Settings) (events : List Event) (e : Event) :
    errands settings (events ++ [e]) =
      errands settings events ++ e.errand (adopted settings events) := by
  induction events generalizing settings with
  | nil => simp [errands, adopted]
  | cons x events ih => simp [errands, ih, adopted_cons settings x events]

theorem errands_requests (settings : Settings) (events : List Event) :
    errands settings (requests events) = errands settings events := by
  induction events generalizing settings with
  | nil => rfl
  | cons e events ih =>
    cases e with
    | call call => simp [requests, errands, Event.isRequest, ← ih]
    | adopt adopted => simp [requests, errands, Event.isRequest, ← ih]
    | _ => simpa [requests, errands, Event.isRequest, Event.errand, adopted] using ih settings

/-- The reply to a call that comes to an errand or to none, by a steady source. -/
def expected (rates : CurrencyPair → Except RateFault Binary64) : Option Errand → Reply
  | none => .nothing
  | some errand => errand.reply (lookupResult errand.pair (rates errand.pair))

/-! ### The ledger that both desks keep -/

/-- A call in flight waits for its errand, and any other call has been replied to once, as
expected. -/
structure Accounted (rates : CurrencyPair → Except RateFault Binary64)
    (calls : List (Option Errand)) (waiting : List (Nat × Errand)) (log : List Happening) :
    Prop where
  tally : Tally calls.length waiting log
  errand_of_waiting : ∀ number errand, waiting.lookup number = some errand →
    calls[number]? = some (some errand)
  replies_eq : ∀ number, waiting.lookup number = none →
    repliesTo log number = (calls[number]?.map (expected rates)).toList

section Accounted

variable {rates : CurrencyPair → Except RateFault Binary64} {calls : List (Option Errand)}
  {waiting : List (Nat × Errand)} {log : List Happening}

theorem Accounted.nil : Accounted rates [] [] [] :=
  ⟨Tally.nil, by simp, by simp [repliesTo]⟩

theorem Accounted.repliesTo_of_waiting (h : Accounted rates calls waiting log) {number : Nat}
    {errand : Errand} (hw : waiting.lookup number = some errand) : repliesTo log number = [] := by
  have hq := h.tally.question_eq number
  rw [hw] at hq
  by_contra hne
  simp [openQuestion?, hne] at hq

theorem getElem?_append_of_ne {α : Type} (l : List α) (a : α) {n : Nat} (h : n ≠ l.length) :
    (l ++ [a])[n]? = l[n]? := by
  rcases Nat.lt_or_gt_of_ne h with hlt | hgt
  · rw [List.getElem?_append_left hlt]
  · rw [List.getElem?_eq_none (Nat.le_of_lt hgt), List.getElem?_eq_none]
    rw [List.length_append]
    exact hgt

theorem Accounted.ne_length_of_waiting (h : Accounted rates calls waiting log) {number : Nat}
    {errand : Errand} (hw : waiting.lookup number = some errand) : number ≠ calls.length := by
  rintro rfl
  rw [h.tally.lookup_opened] at hw
  cases hw

theorem Accounted.reply (h : Accounted rates calls waiting log) (call : Option Errand) :
    Accounted rates (calls ++ [call]) waiting
      (log ++ [.replied calls.length (expected rates call)]) := by
  refine ⟨?_, fun n errand hw => ?_, fun n hw => ?_⟩
  · simpa using h.tally.reply (expected rates call)
  · rw [getElem?_append_of_ne _ _ (h.ne_length_of_waiting hw)]
    exact h.errand_of_waiting n errand hw
  · rw [repliesTo_append, h.replies_eq n hw, repliesTo_replied]
    by_cases hn : calls.length = n
    · subst hn
      simp
    · rw [if_neg hn, List.append_nil, getElem?_append_of_ne _ _ (Ne.symm hn)]

theorem Accounted.ask (h : Accounted rates calls waiting log) (errand : Errand) :
    Accounted rates (calls ++ [some errand]) (waiting ++ [(calls.length, errand)])
      (log ++ [.asked calls.length errand.pair]) := by
  refine ⟨?_, fun n errand' hw => ?_, fun n hw => ?_⟩
  · simpa using h.tally.ask errand
  · by_cases hn : n = calls.length
    · subst hn
      simp [List.lookup_append, h.tally.lookup_opened] at hw
      simp [hw]
    · rw [lookup_append_of_ne _ hn] at hw
      rw [getElem?_append_of_ne _ _ hn]
      exact h.errand_of_waiting n errand' hw
  · have hn : n ≠ calls.length := by
      rintro rfl
      simp [List.lookup_append] at hw
    rw [lookup_append_of_ne _ hn] at hw
    rw [repliesTo_append, h.replies_eq n hw, repliesTo_asked, List.append_nil,
      getElem?_append_of_ne _ _ hn]

theorem Accounted.settle (h : Accounted rates calls waiting log) {number : Nat} {errand : Errand}
    (hw : waiting.lookup number = some errand) :
    Accounted rates calls (waiting.filter (·.1 != number))
      (log ++ [.replied number (expected rates (some errand))]) := by
  refine ⟨h.tally.settle hw _, fun n errand' hn => ?_, fun n hn => ?_⟩
  · rw [lookup_filter_ne] at hn
    split at hn
    · cases hn
    · exact h.errand_of_waiting n errand' hn
  · rw [lookup_filter_ne] at hn
    rw [repliesTo_append, repliesTo_replied]
    by_cases he : number = n
    · subst he
      rw [h.repliesTo_of_waiting hw, h.errand_of_waiting number errand hw]
      simp
    · rw [if_neg (Ne.symm he)] at hn
      rw [if_neg he, List.append_nil, h.replies_eq n hn]

end Accounted

/-! ### Both desks keep the ledger -/

/-- Every entry is what a steady source answers for its pair. -/
def Faithful (rates : CurrencyPair → Except RateFault Binary64) (c : RateCache) : Prop :=
  ∀ pair entry, c.stored? pair = some entry → rates pair = .ok entry.rate

section Faithful

variable {rates : CurrencyPair → Except RateFault Binary64} {c : RateCache}

theorem Faithful.empty (validity : Nat) : Faithful rates (.empty validity) := by
  intro pair entry h
  cases h

theorem Faithful.store (h : Faithful rates c) {pair : CurrencyPair} {rate : Binary64}
    (hr : rates pair = .ok rate) (now : Nat) : Faithful rates (c.store now pair rate) := by
  intro other entry ho
  by_cases he : other = pair
  · subst he
    rw [RateCache.stored?_store_self] at ho
    cases ho
    exact hr
  · rw [RateCache.stored?_store_of_ne _ _ he] at ho
    exact h other entry ho

/-- What is served is what the source answers. -/
theorem Faithful.rate_of_fresh? (h : Faithful rates c) {now : Nat} {pair : CurrencyPair}
    {rate : Binary64} (hf : c.fresh? now pair = some rate) : rates pair = .ok rate := by
  obtain ⟨entry, he, rfl⟩ := Option.map_eq_some_iff.mp hf
  exact h pair entry (Option.filter_eq_some_iff.mp he).1

end Faithful

theorem timesAsked_append (log more : List Happening) (pair : CurrencyPair) :
    timesAsked (log ++ more) pair = timesAsked log pair + timesAsked more pair :=
  List.countP_append

@[simp] theorem timesAsked_asked (number : Nat) (p pair : CurrencyPair) :
    timesAsked [.asked number p] pair = if p = pair then 1 else 0 := by
  simp [timesAsked, List.countP_cons]

@[simp] theorem timesAsked_replied (number : Nat) (reply : Reply) (pair : CurrencyPair) :
    timesAsked [.replied number reply] pair = 0 := rfl

/-- Whether a call needs the rate of a pair. -/
def needs (pair : CurrencyPair) (call : Option Errand) : Bool :=
  call.any fun errand => errand.pair = pair

theorem settings_step (d : Desk) (e : Event) :
    (d.step e).1.settings = adopted d.settings [e] := by
  cases e using step_cases d with
  | no_errand call he hs => rw [hs]; rfl
  | fresh call errand rate he hf hs => rw [hs]; rfl
  | not_fresh call errand he hf hs => rw [hs]; rfl
  | not_waiting number result hw hs => rw [hs]; rfl
  | waiting number result errand hw hs => rw [hs]; rfl
  | store pair rate => rfl
  | pass milliseconds => rfl
  | adopt settings => rfl

/-- The ledger of a desk with a cache: as `Accounted`, every entry is what the source
answers, and the source was asked for a pair at most once for every call that needs it. -/
structure CachedLedger (rates : CurrencyPair → Except RateFault Binary64) (d : Desk)
    (calls : List (Option Errand)) (log : List Happening) : Prop where
  opened_eq : d.opened = calls.length
  accounted : Accounted rates calls d.waiting log
  faithful : Faithful rates d.cache
  asked_le : ∀ pair, timesAsked log pair ≤ calls.countP (needs pair)

/-- A step keeps the ledger, when no rate is put into the cache from outside and the source
is steady. -/
theorem CachedLedger.step {rates : CurrencyPair → Except RateFault Binary64} {d : Desk}
    {calls : List (Option Errand)} {log : List Happening} (h : CachedLedger rates d calls log)
    (e : Event) (hstore : ∀ pair rate, e ≠ .store pair rate)
    (hsteady : ∀ number answer pair, e = .answer number answer →
      openQuestion? log number = some pair → answer = rates pair) :
    CachedLedger rates (d.step e).1 (calls ++ e.errand d.settings) (log ++ (d.step e).2) := by
  obtain ⟨ho, hs, hc, ha⟩ := h
  cases e using step_cases d with
  | no_errand call he hstep =>
    rw [hstep, ho, Event.errand, he]
    refine ⟨by simp, hs.reply none, hc, fun pair => ?_⟩
    simpa [timesAsked_append, needs] using ha pair
  | fresh call errand rate he hf hstep =>
    rw [hstep, ho, Event.errand, he]
    have hr := hs.reply (some errand)
    rw [expected, hc.rate_of_fresh? hf] at hr
    refine ⟨by simp, hr, hc, fun pair => ?_⟩
    simpa [timesAsked_append] using Nat.le_add_right_of_le (ha pair)
  | not_fresh call errand he hf hstep =>
    rw [hstep, ho, Event.errand, he]
    refine ⟨by simp, hs.ask errand, hc, fun pair => ?_⟩
    have hp := ha pair
    simp only [timesAsked_append, timesAsked_asked, List.countP_append, List.countP_singleton,
      needs, Option.any_some, decide_eq_true_eq]
    omega
  | not_waiting number answer hw hstep =>
    show CachedLedger rates (d.step (.answer number answer)).1 (calls ++ []) _
    rw [hstep, List.append_nil, List.append_nil]
    exact ⟨ho, hs, hc, ha⟩
  | waiting number answer errand hw hstep =>
    have hq : openQuestion? log number = some errand.pair := by
      rw [hs.tally.question_eq, hw]
      rfl
    obtain rfl := hsteady number answer errand.pair rfl hq
    show CachedLedger rates (d.step (.answer number (rates errand.pair))).1 (calls ++ []) _
    rw [hstep, List.append_nil]
    refine ⟨ho, hs.settle hw, ?_, fun pair => ?_⟩
    · rcases hr : rates errand.pair with fault | rate
      · exact hc
      · exact hc.store hr d.now
    · simpa [timesAsked_append] using ha pair
  | store pair rate => exact absurd rfl (hstore pair rate)
  | pass milliseconds =>
    show CachedLedger rates { d with now := d.now + milliseconds } (calls ++ []) (log ++ [])
    rw [List.append_nil, List.append_nil]
    exact ⟨ho, hs, hc, ha⟩
  | adopt settings =>
    show CachedLedger rates { d with settings := settings } (calls ++ []) (log ++ [])
    rw [List.append_nil, List.append_nil]
    exact ⟨ho, hs, hc, ha⟩

/-- A desk with a cache keeps its ledger throughout a run. -/
theorem cachedLedger_run {rates : CurrencyPair → Except RateFault Binary64} (settings : Settings)
    (validity : Nat) (events : List Event) (hstore : ∀ pair rate, .store pair rate ∉ events)
    (hsteady : Steady rates (fun es => ((fresh settings validity).run es).2) events) :
    ((fresh settings validity).run events).1.settings = adopted settings events ∧
      CachedLedger rates ((fresh settings validity).run events).1 (errands settings events)
        ((fresh settings validity).run events).2 := by
  induction events using List.reverseRecOn with
  | nil => exact ⟨rfl, rfl, Accounted.nil, Faithful.empty validity, fun _ => Nat.le_refl 0⟩
  | append_singleton events e ih =>
    obtain ⟨hs, hl⟩ := ih (fun pair rate h => hstore pair rate (List.mem_append_left _ h))
      hsteady.init
    have hstep := hl.step e
      (fun pair rate he => hstore pair rate (he ▸ List.mem_append_right _ List.mem_cons_self))
      (fun number answer pair he hq => by
        subst he
        exact hsteady.last hq)
    rw [run_append_event, errands_append_event, settings_step, adopted_append, ← hs]
    exact ⟨rfl, hstep⟩

end Desk

namespace Uncached

open Desk (Accounted Steady adopted errands timesAsked needs openQuestion? lookup_filter_ne
  timesAsked_append timesAsked_asked timesAsked_replied adopted_append errands_append_event)

/-- The ledger of a desk without a cache: the source was asked for a pair once for every
call that needs it. -/
structure Ledger (rates : CurrencyPair → Except RateFault Binary64) (d : Uncached)
    (calls : List (Option Errand)) (log : List Happening) : Prop where
  opened_eq : d.opened = calls.length
  accounted : Accounted rates calls d.waiting log
  asked_eq : ∀ pair, timesAsked log pair = calls.countP (needs pair)

theorem settings_step (d : Uncached) (e : Event) :
    (d.step e).1.settings = adopted d.settings [e] := by
  cases e with
  | call call =>
    simp only [step, takeCall]
    split <;> rfl
  | answer number answer =>
    simp only [step, takeAnswer]
    split <;> rfl
  | store pair rate => rfl
  | pass milliseconds => rfl
  | adopt settings => rfl

theorem Ledger.step {rates : CurrencyPair → Except RateFault Binary64} {d : Uncached}
    {calls : List (Option Errand)} {log : List Happening} (h : Ledger rates d calls log)
    (e : Event) (hsteady : ∀ number answer pair, e = .answer number answer →
      openQuestion? log number = some pair → answer = rates pair) :
    Ledger rates (d.step e).1 (calls ++ e.errand d.settings) (log ++ (d.step e).2) := by
  obtain ⟨ho, hs, ha⟩ := h
  cases e with
  | call call =>
    rcases he : call.errand? d.settings with _ | errand
    · simp only [Uncached.step, takeCall, he, Event.errand, ho]
      refine ⟨by simp, hs.reply none, fun pair => ?_⟩
      simpa [timesAsked_append, needs] using ha pair
    · simp only [Uncached.step, takeCall, he, Event.errand, ho]
      refine ⟨by simp, hs.ask errand, fun pair => ?_⟩
      rw [timesAsked_append, timesAsked_asked, List.countP_append, List.countP_singleton, ha pair]
      simp [needs]
  | answer number answer =>
    show Ledger rates (d.step (.answer number answer)).1 (calls ++ []) _
    rw [List.append_nil]
    rcases hw : d.waiting.lookup number with _ | errand
    · simp only [Uncached.step, takeAnswer, hw, List.append_nil]
      exact ⟨ho, hs, ha⟩
    · have hq : openQuestion? log number = some errand.pair := by
        rw [hs.tally.question_eq, hw]
        rfl
      obtain rfl := hsteady number answer errand.pair rfl hq
      simp only [Uncached.step, takeAnswer, hw]
      refine ⟨ho, hs.settle hw, fun pair => ?_⟩
      rw [timesAsked_append, timesAsked_replied, ha pair, Nat.add_zero]
  | store pair rate =>
    show Ledger rates d (calls ++ []) (log ++ [])
    rw [List.append_nil, List.append_nil]
    exact ⟨ho, hs, ha⟩
  | pass milliseconds =>
    show Ledger rates d (calls ++ []) (log ++ [])
    rw [List.append_nil, List.append_nil]
    exact ⟨ho, hs, ha⟩
  | adopt settings =>
    show Ledger rates { d with settings := settings } (calls ++ []) (log ++ [])
    rw [List.append_nil, List.append_nil]
    exact ⟨ho, hs, ha⟩

theorem ledger_run {rates : CurrencyPair → Except RateFault Binary64} (settings : Settings)
    (events : List Event) (hsteady : Steady rates (fun es => ((fresh settings).run es).2) events) :
    ((fresh settings).run events).1.settings = adopted settings events ∧
      Ledger rates ((fresh settings).run events).1 (errands settings events)
        ((fresh settings).run events).2 := by
  induction events using List.reverseRecOn with
  | nil => exact ⟨rfl, rfl, Accounted.nil, fun _ => rfl⟩
  | append_singleton events e ih =>
    obtain ⟨hs, hl⟩ := ih hsteady.init
    have hstep := hl.step e fun number answer pair he hq => by
      subst he
      exact hsteady.last hq
    rw [run_append_event, errands_append_event, settings_step, adopted_append, ← hs]
    exact ⟨rfl, hstep⟩

end Uncached

namespace Desk

section Accounted

variable {rates : CurrencyPair → Except RateFault Binary64} {calls : List (Option Errand)}
  {waiting : List (Nat × Errand)} {log : List Happening}

/-- A call that asks nothing any more has its expected reply, once it has come in. -/
theorem Accounted.repliesTo_of_no_question (h : Accounted rates calls waiting log) {number : Nat}
    (hq : openQuestion? log number = none) :
    repliesTo log number = (calls[number]?.map (expected rates)).toList := by
  rw [h.tally.question_eq] at hq
  exact h.replies_eq number (Option.map_eq_none_iff.mp hq)

theorem Accounted.eq_of_mem_repliesTo (h : Accounted rates calls waiting log) {number : Nat}
    {reply : Reply} (hr : reply ∈ repliesTo log number) :
    calls[number]?.map (expected rates) = some reply := by
  have hq : openQuestion? log number = none := by
    have hne : repliesTo log number ≠ [] := List.ne_nil_of_mem hr
    simp [openQuestion?, hne]
  rw [h.repliesTo_of_no_question hq] at hr
  exact Option.mem_toList.mp hr

end Accounted

/-- **With a steady source the cache cannot be seen.** Let a desk with a cache of any
validity and one without a cache get the same calls and the same changes of the settings,
in one order, while time passes and a steady source answers at any moments of the two runs;
and let no rate be put into the cache from outside. Then every call that does not wait for
the source has the same replies in both runs, any two replies to one call are the same, and
the desk with a cache has asked the source no more often for any pair. -/
theorem replies_eq_uncached (rates : CurrencyPair → Except RateFault Binary64)
    (settings : Settings) (validity : Nat) {events plainEvents : List Event}
    (hstore : ∀ pair rate, .store pair rate ∉ events)
    (hrequests : requests events = requests plainEvents)
    (hsteady : Steady rates (fun es => ((fresh settings validity).run es).2) events)
    (hplain : Steady rates (fun es => ((Uncached.fresh settings).run es).2) plainEvents) :
    let log := ((fresh settings validity).run events).2
    let plainLog := ((Uncached.fresh settings).run plainEvents).2
    (∀ number, openQuestion? log number = none → openQuestion? plainLog number = none →
      repliesTo log number = repliesTo plainLog number) ∧
    (∀ number reply plainReply, reply ∈ repliesTo log number →
      plainReply ∈ repliesTo plainLog number → reply = plainReply) ∧
    ∀ pair, timesAsked log pair ≤ timesAsked plainLog pair := by
  intro log plainLog
  have hcalls : errands settings plainEvents = errands settings events := by
    rw [← errands_requests, ← hrequests, errands_requests]
  obtain ⟨-, -, hs, -, ha⟩ := cachedLedger_run settings validity events hstore hsteady
  obtain ⟨-, -, hs', ha'⟩ := Uncached.ledger_run settings plainEvents hplain
  rw [hcalls] at hs' ha'
  refine ⟨fun number hq hq' => ?_, fun number reply plainReply hr hr' => ?_, fun pair => ?_⟩
  · rw [hs.repliesTo_of_no_question hq, hs'.repliesTo_of_no_question hq']
  · have h := hs.eq_of_mem_repliesTo hr
    rw [hs'.eq_of_mem_repliesTo hr'] at h
    exact (Option.some.inj h).symm
  · rw [ha' pair]
    exact ha pair

/-- A second lookup, in other letter case, is replied to from the cache in the one run and
by the source, before the first, in the other. -/
theorem replies_eq_uncached_second_lookup :
    repliesTo ((fresh (.byDefault "USD") 10).run
        [.call (.rate "USD" "eur"), .answer 0 (.ok (.ofInt 2)), .call (.rate "usd" "EUR")]).2 1 =
      repliesTo ((Uncached.fresh (.byDefault "USD")).run
        [.call (.rate "USD" "eur"), .call (.rate "usd" "EUR"), .answer 1 (.ok (.ofInt 2)),
          .pass 5, .answer 0 (.ok (.ofInt 2))]).2 1 := by
  refine (replies_eq_uncached (fun _ => .ok (.ofInt 2)) (.byDefault "USD") 10 ?_ ?_
    (.of_forall_mem ?_) (.of_forall_mem ?_)).1 1 ?_ ?_
  · simp
  · rfl
  · simp
  · intro number answer h _
    simp only [List.mem_cons, Event.answer.injEq, reduceCtorEq, List.not_mem_nil, false_or,
      or_false] at h
    rcases h with ⟨-, rfl⟩ | ⟨-, rfl⟩ <;> rfl
  · rfl
  · rfl

end Desk

end CurrencyDesk
