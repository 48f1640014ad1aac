import CurrencyDesk.Proofs.Desk.Sequence
/-!
# What comes of a query

A query is replied to with no items, with the item of a failure, or with the item of a
conversion. No items are for the texts that are no conversion, of which nothing else comes.
Any other query does to the desk and to its source what a lookup of its pair does, and it
depends on what this finds: on a fault, or on a rate at which the amount is out of range, the
failure is shown, and otherwise the converted amount. A fault leaves the cache as it was. A
rate stays in the cache even when the amount is out of range at it, so that the pair is not
asked for again while the rate may be served (`Held`).

Key definitions: `Served.Ignored`, `Served.Converts`, `Held`.
Key theorems: `Held.take`, `Held.run`, `Held.fresh?`, `serve_query`,
`converts_of_parse?_eq_some`, `query_outcomes`.
-/

namespace CurrencyDesk

/-! ### Entries stay -/

section Held

variable {σ : Type} {source : RateSource σ} {pair : CurrencyPair} {time : Nat} {o : Office σ}

/-- A pair has an entry that is not older than an instant. -/
structure Held (pair : CurrencyPair) (time : Nat) (o : Office σ) : Prop where
  idle : o.Idle
  le_now : time ≤ o.desk.now
  stored : ∃ entry, o.desk.cache.stored? pair = some entry ∧ time ≤ entry.storedAt

/-- An answer does not take an entry away, nor put an older one in its place. -/
theorem Held.entryAfter (h : Held pair time o) {later : Nat} (hle : time ≤ later)
    (answer : Except RateFault Binary64) :
    ∃ entry, entryAfter (o.desk.cache.stored? pair) later answer = some entry ∧
      time ≤ entry.storedAt := by
  cases answer with
  | ok rate => exact ⟨_, rfl, hle⟩
  | error fault => exact h.stored

theorem Held.afterLookUp (h : Held pair time o) (source : RateSource σ) (other : CurrencyPair) :
    Held pair time (o.desk.afterLookUp source o.state other) := by
  have hle : time ≤ (o.desk.lookUp source o.state other).finished :=
    Nat.le_trans h.le_now (le_finished ..)
  refine ⟨(waiting_afterLookUp ..).trans h.idle, ?_, ?_⟩
  · rwa [now_afterLookUp]
  · by_cases hp : pair = other
    · subst hp
      rw [stored?_afterLookUp]
      rcases hf : o.desk.cache.fresh? o.desk.now pair with _ | rate
      · rw [lookUp_of_not_fresh hf] at hle ⊢
        exact h.entryAfter hle _
      · rw [lookUp_of_fresh hf]
        exact h.stored
    · rw [stored?_afterLookUp_of_ne _ _ _ _ hp]
      exact h.stored

/-- No turn takes an entry away, nor puts an older one in its place. -/
theorem Held.take (h : Held pair time o) (source : RateSource σ) (turn : Turn) :
    Held pair time (o.take source turn).2 := by
  cases turn with
  | call call =>
    rcases he : call.errand? o.desk.settings with _ | errand
    · rw [Office.take_call_of_no_errand source h.idle he]
      exact ⟨h.idle, h.le_now, h.stored⟩
    · rw [Office.take_call_of_errand source h.idle he]
      exact h.afterLookUp source errand.pair
  | store other rate =>
    refine ⟨h.idle, h.le_now, ?_⟩
    by_cases hp : pair = other
    · subst hp
      exact ⟨_, RateCache.stored?_store_self .., h.le_now⟩
    · obtain ⟨entry, he, hle⟩ := h.stored
      exact ⟨entry, (RateCache.stored?_store_of_ne _ _ hp rate).trans he, hle⟩
  | pass milliseconds => exact ⟨h.idle, Nat.le_add_right_of_le h.le_now, h.stored⟩
  | adopt settings => exact ⟨h.idle, h.le_now, h.stored⟩

theorem Held.run (h : Held pair time o) (source : RateSource σ) (turns : List Turn) :
    Held pair time (o.run source turns).2 := by
  induction turns generalizing o with
  | nil => exact h
  | cons turn turns ih => exact ih (h.take source turn)

theorem Held.fresh? (h : Held pair time o) (hrecent : o.desk.now - time < o.desk.cache.validity) :
    ∃ rate, o.desk.cache.fresh? o.desk.now pair = some rate := by
  obtain ⟨entry, he, hle⟩ := h.stored
  have hfresh : o.desk.cache.isFresh o.desk.now entry = true := by
    rw [RateCache.isFresh, decide_eq_true_eq, CacheEntry.age]
    omega
  exact ⟨entry.rate, by rw [RateCache.fresh?, he, Option.filter_some, if_pos hfresh]; rfl⟩

end Held

/-! ### The outcomes of a query -/

/-- The text of a query was no conversion: there is nothing to show, and nothing was done. -/
structure Served.Ignored {σ : Type} (o : Office σ) (served : Served σ) : Prop where
  replies : served.replies = [.items []]
  asked : served.asked = []
  cache : served.desk.cache = o.desk.cache
  now : served.desk.now = o.desk.now
  settings : served.desk.settings = o.desk.settings
  state : served.state = o.state

/-- The item that shows a request converted to an amount. -/
def Request.shown (request : Request) (amount : String) : Item where
  title := amount ++ " " ++ Text.upperString request.target
  subtitle := "Currency conversion from " ++ Text.upperString request.source ++ " to " ++
    Text.upperString request.target
  copies := some amount

/-- A query was for the conversion of a request, and a lookup of its pair finds a rate or
fails. -/
structure Served.Converts {σ : Type} (source : RateSource σ) (o : Office σ) (request : Request)
    (found : Except LookupError Binary64) (served : Served σ) : Prop where
  /-- The failure is shown when nothing is found, or when the product is not finite. -/
  failure_iff : served.replies = [.items [Item.failure]] ↔
    (∃ error, found = .error error) ∨
      ∃ rate, found = .ok rate ∧ (request.amount.mul rate).isFinite = false
  /-- Otherwise the converted amount is shown and copied. -/
  success : ∀ rate product, found = .ok rate → request.amount.mul rate = .finite product →
    served.replies = [.items [request.shown (ConvertedAmount.ofFinite product).text]]
  /-- A lookup that fails leaves the cache as it was. -/
  cache_of_error : ∀ error, found = .error error → served.desk.cache = o.desk.cache
  /-- A rate that was asked for is in the cache, whatever the product is. -/
  cache_of_asked : ∀ rate, found = .ok rate → served.asked ≠ [] →
    served.desk.cache =
      o.desk.cache.store served.desk.now (.ofCodes request.source request.target) rate
  /-- No query of the pair asks for it again while the rate may be served. -/
  not_asked_again : ∀ rate, found = .ok rate → served.asked ≠ [] → ∀ turns text again,
    let later := ((⟨served.desk, served.state⟩ : Office σ).run source turns).2
    later.desk.now - served.desk.now < o.desk.cache.validity →
    Request.parse? later.desk.settings text = some again →
    CurrencyPair.ofCodes again.source again.target = .ofCodes request.source request.target →
      (later.desk.serve source later.state [.query text]).asked = []

section Query

variable {σ : Type} {source : RateSource σ} {o : Office σ} {text : String} {request : Request}

/-- A query for a conversion is replied to with the item of what the lookup leads to. -/
theorem serve_query (h : o.Idle) (hp : Request.parse? o.desk.settings text = some request) :
    let pair := CurrencyPair.ofCodes request.source request.target
    o.desk.serve source o.state [.query text] =
      { replies := [.items [.ofResult
          (Conversion.make request (o.desk.lookUp source o.state pair).result)]]
        asked := (o.desk.lookUp source o.state pair).asked
        desk := (o.desk.afterLookUp source o.state pair).desk
        state := (o.desk.afterLookUp source o.state pair).state } := by
  have he : (Call.query text).errand? o.desk.settings = some (.items request) := by
    rw [Call.errand?, hp, Option.map_some]
  exact serve_of_errand (h.lookup _) he

theorem serve_rate (h : o.Idle) (source : RateSource σ) (request : Request) :
    let pair := CurrencyPair.ofCodes request.source request.target
    o.desk.serve source o.state [.rate request.source request.target] =
      { replies := [.rate (o.desk.lookUp source o.state pair).result]
        asked := (o.desk.lookUp source o.state pair).asked
        desk := (o.desk.afterLookUp source o.state pair).desk
        state := (o.desk.afterLookUp source o.state pair).state } := by
  have he : (Call.rate request.source request.target).errand? o.desk.settings =
      some (.rate (.ofCodes request.source request.target)) := rfl
  exact serve_of_errand (h.lookup _) he

theorem ofResult_make_eq_failure_iff {found : Except LookupError Binary64} :
    Item.ofResult (Conversion.make request found) = Item.failure ↔
      (∃ error, found = .error error) ∨
        ∃ rate, found = .ok rate ∧ (request.amount.mul rate).isFinite = false := by
  cases found with
  | error error => simp [Conversion.make, Item.ofResult]
  | ok rate =>
    rcases hproduct : request.amount.mul rate with _ | s | x
    · simp [Conversion.make, Item.ofResult, hproduct, ConvertedAmount.ofProduct?, Binary64.isFinite]
    · simp [Conversion.make, Item.ofResult, hproduct, ConvertedAmount.ofProduct?, Binary64.isFinite]
    · simp [Conversion.make, Item.ofResult, hproduct, ConvertedAmount.ofProduct?, Binary64.isFinite,
        Item.ofConversion, Item.failure]

theorem ofResult_make_of_finite {rate : Binary64} {product : Binary64.Finite}
    (h : request.amount.mul rate = .finite product) :
    Item.ofResult (Conversion.make request (.ok rate)) =
      request.shown (ConvertedAmount.ofFinite product).text := by
  simp [Conversion.make, Item.ofResult, h, ConvertedAmount.ofProduct?, Item.ofConversion,
    Request.shown]

theorem ignored_of_parse?_eq_none (h : o.Idle)
    (hp : Request.parse? o.desk.settings text = none) :
    (o.desk.serve source o.state [.query text]).Ignored o := by
  have he : (Call.query text).errand? o.desk.settings = none := by
    rw [Call.errand?, hp, Option.map_none]
  rw [serve_of_no_errand (h.lookup _) he]
  exact ⟨rfl, rfl, rfl, rfl, rfl, rfl⟩

theorem cache_afterLookUp_of_error {d : Desk} {state : σ} {pair : CurrencyPair}
    {error : LookupError} (h : (d.lookUp source state pair).result = .error error) :
    (d.afterLookUp source state pair).desk.cache = d.cache := by
  rcases hf : d.cache.fresh? d.now pair with _ | rate
  · rw [lookUp_of_not_fresh hf] at h
    rw [afterLookUp_of_not_fresh hf]
    rcases hanswer : (source.ask state pair).1.result with fault | rate
    · rfl
    · rw [hanswer] at h
      cases h
  · rw [lookUp_of_fresh hf] at h
    cases h

theorem cache_afterLookUp_of_asked {d : Desk} {state : σ} {pair : CurrencyPair} {rate : Binary64}
    (h : (d.lookUp source state pair).result = .ok rate)
    (hasked : (d.lookUp source state pair).asked ≠ []) :
    (d.afterLookUp source state pair).desk.cache =
      d.cache.store (d.lookUp source state pair).finished pair rate := by
  rcases hf : d.cache.fresh? d.now pair with _ | served
  · rw [lookUp_of_not_fresh hf] at h ⊢
    rw [afterLookUp_of_not_fresh hf]
    rcases hanswer : (source.ask state pair).1.result with fault | fetched
    · rw [hanswer] at h
      cases h
    · rw [hanswer] at h
      obtain rfl : fetched = rate := Except.ok.inj h
      rfl
  · rw [lookUp_of_fresh hf] at hasked
    exact absurd rfl hasked

/-- A pair whose rate has been stored just now is not asked for again while it is fresh. -/
theorem Held.asked_eq_nil {pair : CurrencyPair} {time : Nat} (h : Held pair time o)
    (hrecent : o.desk.now - time < o.desk.cache.validity)
    (hp : Request.parse? o.desk.settings text = some request)
    (hpair : CurrencyPair.ofCodes request.source request.target = pair) :
    (o.desk.serve source o.state [.query text]).asked = [] := by
  obtain ⟨rate, hrate⟩ := h.fresh? hrecent
  rw [serve_query h.idle hp, hpair, lookUp_of_fresh hrate]

/-- A query for a conversion comes to what the lookup of its pair leads to. -/
theorem converts_of_parse?_eq_some (h : o.Idle)
    (hp : Request.parse? o.desk.settings text = some request) :
    (o.desk.serve source o.state [.query text]).Converts source o request
      (o.desk.lookUp source o.state (.ofCodes request.source request.target)).result := by
  rw [serve_query h hp]
  generalize hpair : CurrencyPair.ofCodes request.source request.target = pair
  have hstored {rate : Binary64} (hfound : (o.desk.lookUp source o.state pair).result = .ok rate)
      (hasked : (o.desk.lookUp source o.state pair).asked ≠ []) :
      (o.desk.afterLookUp source o.state pair).desk.cache = o.desk.cache.store
        (o.desk.afterLookUp source o.state pair).desk.now pair rate := by
    rw [now_afterLookUp]
    exact cache_afterLookUp_of_asked hfound hasked
  have hidle : (o.desk.afterLookUp source o.state pair).Idle := (waiting_afterLookUp ..).trans h
  refine
    { failure_iff := ?_
      success := fun rate product hfound hproduct => ?_
      cache_of_error := fun error hfound => cache_afterLookUp_of_error hfound
      cache_of_asked := fun rate hfound hasked => hpair ▸ hstored hfound hasked
      not_asked_again := ?_ }
  · rw [← ofResult_make_eq_failure_iff]
    simp
  · rw [hfound, ofResult_make_of_finite hproduct]
  · intro rate hfound hasked turns text again later hrecent hparse hagain
    have hheld : Held pair (o.desk.afterLookUp source o.state pair).desk.now
        (o.desk.afterLookUp source o.state pair) := by
      refine ⟨hidle, le_rfl, ⟨rate, (o.desk.afterLookUp source o.state pair).desk.now⟩, ?_, le_rfl⟩
      rw [hstored hfound hasked]
      exact RateCache.stored?_store_self ..
    have hvalidity : later.desk.cache.validity = o.desk.cache.validity :=
      (validity_run hidle turns).trans (validity_afterLookUp ..)
    exact (hheld.run source turns).asked_eq_nil (hvalidity ▸ hrecent) hparse (hagain.trans hpair)

end Query

/-- **A query has three outcomes, each with its own effects.** Whatever was done before, one
thing at a time: a text is replied to with no items exactly when it is no conversion, and then
nothing is done. Otherwise the query does what the lookup of its pair does, in the same time
and with the same questions; it shows the failure exactly when this fails or leads to a
product that is not finite, and the converted amount in all other cases. -/
theorem query_outcomes {σ : Type} (source : RateSource σ) (state : σ) (settings : Settings)
    (validity : Nat) (turns : List Turn) (text : String) :
    let o := ((Office.fresh settings validity state).run source turns).2
    let served := o.desk.serve source o.state [.query text]
    (served.replies = [.items []] ↔ Request.parse? o.desk.settings text = none) ∧
    (Request.parse? o.desk.settings text = none → served.Ignored o) ∧
    ∀ request, Request.parse? o.desk.settings text = some request →
      let looked := o.desk.serve source o.state [.rate request.source request.target]
      (served.asked = looked.asked ∧ served.desk = looked.desk ∧ served.state = looked.state) ∧
      ∃ found, looked.replies = [.rate found] ∧ served.Converts source o request found := by
  intro o served
  have hidle : o.Idle := (Office.idle_fresh settings validity state).run source turns
  refine ⟨⟨fun hnone => ?_, fun hp => (ignored_of_parse?_eq_none hidle hp).replies⟩,
    ignored_of_parse?_eq_none hidle, fun request hp => ?_⟩
  · by_contra hsome
    obtain ⟨request, hp⟩ := Option.ne_none_iff_exists'.mp hsome
    rw [show served = _ from serve_query hidle hp] at hnone
    simp at hnone
  · rw [serve_rate hidle source request]
    refine ⟨?_, _, rfl, converts_of_parse?_eq_some hidle hp⟩
    rw [show served = _ from serve_query hidle hp]
    exact ⟨rfl, rfl, rfl⟩

-- a rate at which the amount is out of range is kept like any other, until it is too old
example :
    let state : Prepared := [(⟨"usd", "jpy"⟩, [⟨3, .ok (.ofInt 150)⟩])]
    let start := Office.fresh (.byDefault "USD") 10 state
    (start.run Prepared.source [.call (.query "1e308 USD to JPY"), .pass 9,
        .call (.query "2 usd in jpy"), .pass 1, .call (.query "2 usd in jpy")]).1.map (·.asked) =
      [[⟨"usd", "jpy"⟩], [], [], [], [⟨"usd", "jpy"⟩]] := by decide +kernel

end CurrencyDesk
