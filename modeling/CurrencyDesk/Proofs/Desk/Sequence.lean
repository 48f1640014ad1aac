import CurrencyDesk.Proofs.Desk.Serving
/-!
# One thing at a time

A desk with its source is given one thing at a time: a call, which is served to its end
before anything else happens, a rate to put into the cache, time that passes, or new
settings. No call is in flight between two turns, so what a turn does is said without
events and numbers: a call that is no conversion does nothing, and any other one comes to
what the lookup of its pair comes to (`Desk.lookUp`), which changes the clock, the entry of
the pair and the state of the source and nothing else (`Desk.afterLookUp`).

Key definitions: `Turn`, `Office`, `Office.take`, `Office.run`, `Desk.afterLookUp`,
`RateSource.after`.
Key theorems: `afterLookUp_eq`, `serve_of_no_errand`, `serve_of_errand`, `take_call_of_errand`,
`Idle.take`, `Idle.run`.
-/

namespace CurrencyDesk

/-! ### Turns -/

/-- What a desk is given when it does one thing at a time. -/
inductive Turn where
  | call (call : Call)
  | store (pair : CurrencyPair) (rate : Binary64)
  | pass (milliseconds : Nat)
  | adopt (settings : Settings)

/-- A desk with its source. -/
structure Office (σ : Type) where
  desk : Desk
  state : σ

/-- What is seen of a turn: the replies to a call, and the pairs that the source was asked
for. -/
structure Seen where
  replies : List Reply := []
  asked : List CurrencyPair := []

namespace Office

variable {σ : Type}

/-- An office that has not been asked anything. -/
def fresh (settings : Settings) (validity : Nat) (state : σ) : Office σ :=
  ⟨.fresh settings validity, state⟩

/-- Takes a turn to its end. -/
def take (source : RateSource σ) (o : Office σ) : Turn → Seen × Office σ
  | .call call =>
    let served := o.desk.serve source o.state [call]
    (⟨served.replies, served.asked⟩, ⟨served.desk, served.state⟩)
  | .store pair rate => ({}, { o with desk := (o.desk.step (.store pair rate)).1 })
  | .pass milliseconds => ({}, { o with desk := (o.desk.step (.pass milliseconds)).1 })
  | .adopt settings => ({}, { o with desk := (o.desk.step (.adopt settings)).1 })

/-- Takes turns, one after the other. -/
def run (source : RateSource σ) (o : Office σ) : List Turn → List Seen × Office σ
  | [] => ([], o)
  | turn :: turns =>
    let (seen, o) := o.take source turn
    let (more, o) := o.run source turns
    (seen :: more, o)

theorem run_cons (source : RateSource σ) (o : Office σ) (turn : Turn) (turns : List Turn) :
    o.run source (turn :: turns) =
      ((o.take source turn).1 :: ((o.take source turn).2.run source turns).1,
        ((o.take source turn).2.run source turns).2) := rfl

end Office

/-! ### A call by itself -/

/-- The state of a source after questions for some pairs. -/
def RateSource.after {σ : Type} (source : RateSource σ) (state : σ) (asked : List CurrencyPair) :
    σ :=
  asked.foldl (fun state pair => (source.ask state pair).2) state

/-- The cache after an answer of the source: a fault leaves it as it was. -/
def RateCache.afterAnswer (c : RateCache) (time : Nat) (pair : CurrencyPair) :
    Except RateFault Binary64 → RateCache
  | .ok rate => c.store time pair rate
  | .error _ => c

/-- The desk and the source after a lookup that starts now. -/
def Desk.afterLookUp {σ : Type} (d : Desk) (source : RateSource σ) (state : σ)
    (pair : CurrencyPair) : Office σ :=
  match d.cache.fresh? d.now pair with
  | some _ => ⟨{ d with opened := d.opened + 1 }, state⟩
  | none =>
    let answer := (source.ask state pair).1
    let time := d.now + answer.delay
    ⟨{ d with
        opened := d.opened + 1
        now := time
        cache := d.cache.afterAnswer time pair answer.result },
      (source.ask state pair).2⟩

section

variable {σ : Type} {d : Desk} {source : RateSource σ} {state : σ} {pair : CurrencyPair}

theorem afterLookUp_of_fresh {rate : Binary64} (h : d.cache.fresh? d.now pair = some rate) :
    d.afterLookUp source state pair = ⟨{ d with opened := d.opened + 1 }, state⟩ := by
  simp only [Desk.afterLookUp, h]

theorem afterLookUp_of_not_fresh (h : d.cache.fresh? d.now pair = none) :
    d.afterLookUp source state pair =
      ⟨{ d with
          opened := d.opened + 1
          now := d.now + (source.ask state pair).1.delay
          cache := d.cache.afterAnswer (d.now + (source.ask state pair).1.delay) pair
            (source.ask state pair).1.result },
        (source.ask state pair).2⟩ := by
  simp only [Desk.afterLookUp, h]

@[simp] theorem RateCache.validity_afterAnswer (c : RateCache) (time : Nat) (pair : CurrencyPair)
    (answer : Except RateFault Binary64) :
    (c.afterAnswer time pair answer).validity = c.validity := by
  cases answer <;> rfl

theorem RateCache.stored?_afterAnswer (c : RateCache) (time : Nat) (pair other : CurrencyPair)
    (answer : Except RateFault Binary64) :
    (c.afterAnswer time pair answer).stored? other =
      if other = pair then entryAfter (c.stored? other) time answer else c.stored? other := by
  cases answer with
  | ok rate =>
    split_ifs with h
    · rw [h]
      exact c.stored?_store_self time pair rate
    · exact c.stored?_store_of_ne time h rate
  | error fault => exact (ite_self _).symm

variable (d source state pair)

/-- A lookup changes the count of calls, the clock, the cache and the state of the source. -/
theorem afterLookUp_eq : d.afterLookUp source state pair =
    ⟨{ d with
        opened := d.opened + 1
        now := (d.lookUp source state pair).finished
        cache := (d.afterLookUp source state pair).desk.cache },
      source.after state (d.lookUp source state pair).asked⟩ := by
  rcases hf : d.cache.fresh? d.now pair with _ | rate
  · rw [afterLookUp_of_not_fresh hf, lookUp_of_not_fresh hf]
    rfl
  · rw [afterLookUp_of_fresh hf, lookUp_of_fresh hf]
    rfl

@[simp] theorem settings_afterLookUp :
    (d.afterLookUp source state pair).desk.settings = d.settings :=
  congrArg (·.desk.settings) (afterLookUp_eq d source state pair)

@[simp] theorem waiting_afterLookUp :
    (d.afterLookUp source state pair).desk.waiting = d.waiting :=
  congrArg (·.desk.waiting) (afterLookUp_eq d source state pair)

@[simp] theorem now_afterLookUp :
    (d.afterLookUp source state pair).desk.now = (d.lookUp source state pair).finished :=
  congrArg (·.desk.now) (afterLookUp_eq d source state pair)

theorem state_afterLookUp : (d.afterLookUp source state pair).state =
    source.after state (d.lookUp source state pair).asked :=
  congrArg (·.state) (afterLookUp_eq d source state pair)

@[simp] theorem validity_afterLookUp :
    (d.afterLookUp source state pair).desk.cache.validity = d.cache.validity := by
  rcases hf : d.cache.fresh? d.now pair with _ | rate
  · rw [afterLookUp_of_not_fresh hf]
    exact RateCache.validity_afterAnswer ..
  · rw [afterLookUp_of_fresh hf]

theorem stored?_afterLookUp : (d.afterLookUp source state pair).desk.cache.stored? pair =
    (d.lookUp source state pair).entry := by
  rcases hf : d.cache.fresh? d.now pair with _ | rate
  · rw [afterLookUp_of_not_fresh hf, lookUp_of_not_fresh hf]
    exact (RateCache.stored?_afterAnswer ..).trans (if_pos rfl)
  · rw [afterLookUp_of_fresh hf, lookUp_of_fresh hf]

theorem stored?_afterLookUp_of_ne {other : CurrencyPair} (h : other ≠ pair) :
    (d.afterLookUp source state pair).desk.cache.stored? other = d.cache.stored? other := by
  rcases hf : d.cache.fresh? d.now pair with _ | rate
  · rw [afterLookUp_of_not_fresh hf]
    exact (RateCache.stored?_afterAnswer ..).trans (if_neg h)
  · rw [afterLookUp_of_fresh hf]

theorem le_finished : d.now ≤ (d.lookUp source state pair).finished := by
  rcases hf : d.cache.fresh? d.now pair with _ | rate
  · rw [lookUp_of_not_fresh hf]
    exact Nat.le_add_right _ _
  · rw [lookUp_of_fresh hf]

end

section

variable {σ : Type} {d : Desk} {source : RateSource σ} {state : σ} {call : Call} {errand : Errand}

theorem serve_of_no_errand (hnew : d.waiting.lookup d.opened = none)
    (he : call.errand? d.settings = none) :
    d.serve source state [call] =
      { replies := [.nothing], asked := [], desk := { d with opened := d.opened + 1 }, state } := by
  have htake : Service.take source ⟨d, state, [], []⟩ call =
      ⟨{ d with opened := d.opened + 1 }, state, [], [.replied d.opened .nothing]⟩ := by
    simp only [Service.take, Service.happen_eq, Desk.step_call_of_no_errand d he, hnew,
      List.nil_append]
  simp [Desk.serve, htake, Service.close, Service.asked, Service.reply?, List.range_succ]

/-- An errand that has been settled is no longer in flight, and the others still are. -/
theorem filter_waiting_append {waiting : List (Nat × Errand)} {number : Nat}
    (hnew : waiting.lookup number = none) (errand : Errand) :
    (waiting ++ [(number, errand)]).filter (·.1 != number) = waiting := by
  have hother : ∀ p ∈ waiting, (p.1 != number) = true := by
    intro p hp
    have hkeys := List.lookup_eq_none_iff.mp hnew p hp
    rw [bne_iff_ne]
    rintro rfl
    simp at hkeys
  rw [List.filter_append, List.filter_eq_self.mpr hother, List.filter_singleton]
  simp

/-- The answer to the one errand in flight settles it at its instant. -/
theorem arrive_answer (hnew : d.waiting.lookup d.opened = none) (time : Nat) (state' : σ)
    (answer : Except RateFault Binary64) :
    Service.happen ⟨{ d with
        opened := d.opened + 1
        waiting := d.waiting ++ [(d.opened, errand)]
        now := time }, state', [], [.asked d.opened errand.pair]⟩ (.answer d.opened answer) =
      ⟨{ d with
          opened := d.opened + 1
          now := time
          cache := d.cache.afterAnswer time errand.pair answer }, state', [],
        [.asked d.opened errand.pair,
          .replied d.opened (errand.reply (lookupResult errand.pair answer))]⟩ := by
  have hw : (d.waiting ++ [(d.opened, errand)]).lookup d.opened = some errand := by
    simp [List.lookup_append, hnew]
  rw [Service.happen_eq, Desk.step_answer_of_waiting _ hw, Desk.settle]
  simp only [filter_waiting_append hnew errand, List.singleton_append]
  cases answer <;> rfl

/-- A call by itself that finds no fresh rate is taken to its end. -/
theorem close_take_of_not_fresh (source : RateSource σ) (state : σ)
    (hnew : d.waiting.lookup d.opened = none) (he : call.errand? d.settings = some errand)
    (hf : d.cache.fresh? d.now errand.pair = none) :
    (Service.take source ⟨d, state, [], []⟩ call).close =
      ⟨(d.afterLookUp source state errand.pair).desk,
        (d.afterLookUp source state errand.pair).state, [],
        [.asked d.opened errand.pair,
          .replied d.opened (errand.reply (d.lookUp source state errand.pair).result)]⟩ := by
  rw [Service.take_of_not_fresh (s := ⟨d, state, [], []⟩) hnew he hf, lookUp_of_not_fresh hf,
    afterLookUp_of_not_fresh hf]
  generalize (source.ask state errand.pair).1 = answer
  rw [Service.pass]
  split_ifs with hdelay
  · -- an answer without delay is there at once
    rw [hdelay]
    exact congrArg Service.close (arrive_answer hnew d.now _ answer.result)
  · exact (Service.arrive_eq (Nat.le_add_right _ _)).trans (arrive_answer hnew _ _ answer.result)

/-- A call by itself comes to what the lookup of its pair comes to. -/
theorem serve_of_errand (hnew : d.waiting.lookup d.opened = none)
    (he : call.errand? d.settings = some errand) :
    d.serve source state [call] =
      { replies := [errand.reply (d.lookUp source state errand.pair).result]
        asked := (d.lookUp source state errand.pair).asked
        desk := (d.afterLookUp source state errand.pair).desk
        state := (d.afterLookUp source state errand.pair).state } := by
  rcases hf : d.cache.fresh? d.now errand.pair with _ | rate
  · have hclose := close_take_of_not_fresh source state hnew he hf
    have hasked : (d.lookUp source state errand.pair).asked = [errand.pair] := by
      rw [lookUp_of_not_fresh hf]
    simp [Desk.serve, hclose, hasked, Service.asked, Service.reply?, List.range_succ]
  · have htake : Service.take source ⟨d, state, [], []⟩ call = _ :=
      Service.take_of_fresh (s := ⟨d, state, [], []⟩) hnew he hf
    rw [lookUp_of_fresh hf, afterLookUp_of_fresh hf]
    simp [Desk.serve, htake, Service.close, Service.asked, Service.reply?, List.range_succ]

end

/-! ### Turns leave nothing in flight -/

namespace Office

variable {σ : Type} {source : RateSource σ} {o : Office σ}

/-- No call is in flight. -/
def Idle (o : Office σ) : Prop :=
  o.desk.waiting = []

theorem Idle.lookup (h : o.Idle) (number : Nat) : o.desk.waiting.lookup number = none := by
  rw [h]
  rfl

theorem idle_fresh (settings : Settings) (validity : Nat) (state : σ) :
    (fresh settings validity state).Idle := rfl

theorem take_call_of_no_errand (source : RateSource σ) (h : o.Idle) {call : Call}
    (he : call.errand? o.desk.settings = none) :
    o.take source (.call call) =
      (⟨[.nothing], []⟩, { o with desk := { o.desk with opened := o.desk.opened + 1 } }) := by
  rw [take, serve_of_no_errand (h.lookup _) he]

theorem take_call_of_errand (source : RateSource σ) (h : o.Idle) {call : Call} {errand : Errand}
    (he : call.errand? o.desk.settings = some errand) :
    o.take source (.call call) =
      (⟨[errand.reply (o.desk.lookUp source o.state errand.pair).result],
          (o.desk.lookUp source o.state errand.pair).asked⟩,
        o.desk.afterLookUp source o.state errand.pair) := by
  rw [take, serve_of_errand (h.lookup _) he]

/-- A turn is taken to its end. -/
theorem Idle.take (h : o.Idle) (source : RateSource σ) (turn : Turn) :
    (o.take source turn).2.Idle := by
  cases turn with
  | call call =>
    rcases he : call.errand? o.desk.settings with _ | errand
    · rw [take_call_of_no_errand source h he]
      exact h
    · rw [take_call_of_errand source h he]
      exact (waiting_afterLookUp ..).trans h
  | store pair rate => exact h
  | pass milliseconds => exact h
  | adopt settings => exact h

theorem Idle.run (h : o.Idle) (source : RateSource σ) (turns : List Turn) :
    (o.run source turns).2.Idle := by
  induction turns generalizing o with
  | nil => exact h
  | cons turn turns ih => exact ih (h.take source turn)

theorem settings_take_call (h : o.Idle) (source : RateSource σ) (call : Call) :
    (o.take source (.call call)).2.desk.settings = o.desk.settings := by
  rcases he : call.errand? o.desk.settings with _ | errand
  · rw [take_call_of_no_errand source h he]
  · rw [take_call_of_errand source h he]
    exact settings_afterLookUp ..

end Office

theorem validity_take {σ : Type} {source : RateSource σ} {o : Office σ} (h : o.Idle) (turn : Turn) :
    (o.take source turn).2.desk.cache.validity = o.desk.cache.validity := by
  cases turn with
  | call call =>
    rcases he : call.errand? o.desk.settings with _ | errand
    · rw [Office.take_call_of_no_errand source h he]
    · rw [Office.take_call_of_errand source h he]
      exact validity_afterLookUp ..
  | store pair rate => rfl
  | pass milliseconds => rfl
  | adopt settings => rfl

theorem validity_run {σ : Type} {source : RateSource σ} {o : Office σ} (h : o.Idle)
    (turns : List Turn) : (o.run source turns).2.desk.cache.validity = o.desk.cache.validity := by
  induction turns generalizing o with
  | nil => rfl
  | cons turn turns ih => exact (ih (h.take source turn)).trans (validity_take h turn)

end CurrencyDesk
