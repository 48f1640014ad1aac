import CurrencyDesk.Proofs.Desk.Ledger
/-!
# A lookup is served from the last write that is young enough

The writes of a run stand in the order of their instants, so when any of them for a pair
is younger than the validity, the last one is, and the cache has that one. A lookup is
therefore answered from the cache exactly when such a write exists, and with the last
of them; otherwise the source is asked once, and what it answers first is the result,
a fault as well as a rate. What the cache holds beyond its validity has no part in it.

Key definitions: `currentWrite?`.
Key theorems: `fresh?_run`, `happenings_of_rate_call`.
-/

namespace CurrencyDesk

namespace Desk

/-- The last write for a pair whose age is below the validity. -/
def currentWrite? (written : List Write) (pair : CurrencyPair) (now validity : Nat) :
    Option Write :=
  (written.filter fun w => w.pair = pair ∧ w.time ≤ now ∧ now - w.time < validity).getLast?

/-- Among writes in the order of their instants, the last one is the youngest: if any has
an age below the validity, it has. -/
theorem getLast?_filter_age {written : List Write} (now validity : Nat)
    (hs : written.Pairwise fun w w' => w.time ≤ w'.time) :
    (written.filter fun w => decide (now - w.time < validity)).getLast? =
      written.getLast?.filter fun w => decide (now - w.time < validity) := by
  induction written using List.reverseRecOn with
  | nil => rfl
  | append_singleton written w ih =>
    rw [List.filter_append, List.getLast?_concat]
    by_cases hw : now - w.time < validity
    · simp [hw, Option.filter_some]
    · -- every earlier write is older still, so that none is left
      have hold : written.filter (fun w => decide (now - w.time < validity)) = [] := by
        rw [List.filter_eq_nil_iff]
        intro w' hw'
        have hle : w'.time ≤ w.time := (List.pairwise_append.mp hs).2.2 w' hw' w (by simp)
        simp only [decide_eq_true_eq]
        omega
      simp [hw, hold, Option.filter_some]

theorem currentWrite?_eq_filter_lastWrite? {written : List Write} {now : Nat}
    (hs : written.Pairwise fun w w' => w.time ≤ w'.time) (hle : ∀ w ∈ written, w.time ≤ now)
    (pair : CurrencyPair) (validity : Nat) :
    currentWrite? written pair now validity =
      (lastWrite? written pair).filter fun w => decide (now - w.time < validity) := by
  rw [lastWrite?, ← getLast?_filter_age now validity (hs.filter _), List.filter_filter,
    currentWrite?]
  congr 1
  refine List.filter_congr fun w hw => ?_
  rw [← Bool.decide_and]
  have hnow := hle w hw
  exact decide_eq_decide.mpr ⟨fun h => ⟨h.2.2, h.1⟩, fun h => ⟨h.2, hnow, h.1⟩⟩

theorem validity_foldl_record (c : RateCache) (written : List Write) :
    (written.foldl RateCache.record c).validity = c.validity := by
  induction written generalizing c with
  | nil => rfl
  | cons w written ih =>
    rw [List.foldl_cons, ih]
    rfl

/-- What a cache serves after a run is the rate of the last write that is young enough. -/
theorem fresh?_run (settings : Settings) (validity : Nat) (events : List Event)
    (pair : CurrencyPair) :
    ((fresh settings validity).run events).1.cache.fresh? (clock events) pair =
      (currentWrite? (writes ((fresh settings validity).transcript events)) pair (clock events)
        validity).map (·.rate) := by
  rw [currentWrite?_eq_filter_lastWrite? (writes_sorted _ events) (write_time_le _ events),
    RateCache.fresh?, cache_run, RateCache.stored?_foldl_record]
  rcases hw : lastWrite? (writes ((fresh settings validity).transcript events)) pair with _ | w
  · rfl
  · have hv : ((writes ((fresh settings validity).transcript events)).foldl RateCache.record
        (.empty validity)).validity = validity := validity_foldl_record ..
    rw [Option.map_some, Option.filter_some, Option.filter_some]
    simp only [RateCache.isFresh, CacheEntry.age, Write.entry, hv]
    split <;> rfl

/-- **A lookup is served by the last write that is young enough, or else by the source.**
In every run from an empty cache, a lookup of a pair is replied to at once with the rate
of the last write whose age is below the validity, and the source is not asked. If there
is no such write, the source is asked once, for that pair, and the first answer to this
question is the result of the lookup, be it a rate or a fault. -/
theorem happenings_of_rate_call (settings : Settings) (validity : Nat)
    (before after : List Event) (source target : String) :
    let start := fresh settings validity
    let number := (start.run before).1.opened
    let pair := CurrencyPair.ofCodes source target
    (start.run (before ++ .call (.rate source target) :: after)).2.filter (·.number = number) =
      match currentWrite? (writes (start.transcript before)) pair (clock before) validity with
      | some w => [.replied number (.rate (.ok w.rate))]
      | none =>
        .asked number pair :: ((firstAnswer? number after).map fun answer =>
          .replied number (.rate (lookupResult pair answer))).toList := by
  intro start number pair
  have htally := tally_run settings validity before
  have hnow : (start.run before).1.now = clock before :=
    (now_run start before).trans (Nat.zero_add _)
  have hfresh := fresh?_run settings validity before pair
  have hbefore : (start.run before).2.filter (·.number = number) = [] :=
    filter_eq_nil_of_number_ne fun x hx => Nat.ne_of_lt (htally.number_lt x hx)
  have herrand : Call.errand? (start.run before).1.settings (.rate source target) =
      some (.rate pair) := rfl
  rw [run_append, List.filter_append, hbefore, List.nil_append]
  rcases hw : currentWrite? (writes (start.transcript before)) pair (clock before) validity
    with _ | w
  · rw [hw] at hfresh
    exact log_of_call_of_not_fresh _ htally herrand (hnow ▸ hfresh) after
  · rw [hw] at hfresh
    exact log_of_call_of_fresh _ htally herrand (hnow ▸ hfresh) after

end Desk

end CurrencyDesk
