import CurrencyDesk.Proofs.Desk.Transcript
import Mathlib.Data.List.Dedup
/-!
# The cache is the log of what was written

What a run leaves in the cache is what its writes leave there when they are recorded one
after the other in an empty cache (`cache_run`): no other event touches it, and nothing is
lost between the moment at which a call asks and the moment at which the answer is
written. So the entry of a pair is its last write, with the instant of that write, the
number of entries is the number of pairs that were written, and an entry is only ever
replaced by a later one.

Key definitions: `lastWrite?`, `RateCache.record`.
Key theorems: `cache_step`, `cache_run`, `stored?_foldl_record`, `size_foldl_record`,
`cache_is_log_of_writes`.
-/

namespace CurrencyDesk

namespace Desk

/-! ### The last write -/

/-- The last write for a pair. -/
def lastWrite? (written : List Write) (pair : CurrencyPair) : Option Write :=
  (written.filter (·.pair = pair)).getLast?

/-- The entry that a write makes. -/
def Write.entry (w : Write) : CacheEntry :=
  ⟨w.rate, w.time⟩

theorem lastWrite?_append (written more : List Write) (pair : CurrencyPair) :
    lastWrite? (written ++ more) pair = (lastWrite? more pair).or (lastWrite? written pair) := by
  simp [lastWrite?, List.getLast?_append]

theorem lastWrite?_append_self (written : List Write) (w : Write) :
    lastWrite? (written ++ [w]) w.pair = some w := by
  simp [lastWrite?]

theorem lastWrite?_append_of_ne (written : List Write) {w : Write} {pair : CurrencyPair}
    (h : pair ≠ w.pair) : lastWrite? (written ++ [w]) pair = lastWrite? written pair := by
  have hw : ¬ w.pair = pair := Ne.symm h
  simp [lastWrite?, hw]

theorem mem_of_lastWrite? {written : List Write} {pair : CurrencyPair} {w : Write}
    (h : lastWrite? written pair = some w) : w ∈ written :=
  List.mem_of_mem_filter (List.mem_of_getLast? h)

/-- A later write takes the place of an earlier one, and nothing else does. -/
theorem lastWrite?_le {written more : List Write} {pair : CurrencyPair} {w : Write}
    (hs : (written ++ more).Pairwise fun w w' => w.time ≤ w'.time)
    (h : lastWrite? written pair = some w) :
    ∃ later, lastWrite? (written ++ more) pair = some later ∧ w.time ≤ later.time := by
  rw [lastWrite?_append, h]
  rcases hm : lastWrite? more pair with _ | later
  · exact ⟨w, rfl, Nat.le_refl _⟩
  · exact ⟨later, rfl,
      (List.pairwise_append.mp hs).2.2 w (mem_of_lastWrite? h) later (mem_of_lastWrite? hm)⟩

end Desk

/-! ### Recording writes -/

namespace RateCache

open Desk (Write lastWrite? lastWrite?_append_self lastWrite?_append_of_ne)

/-- Stores what is written, at its instant. -/
def record (c : RateCache) (w : Write) : RateCache :=
  c.store w.time w.pair w.rate

theorem map_fst_replace {α β : Type} [DecidableEq α] (key : α) (value : β) (l : List (α × β)) :
    (replace key value l).map Prod.fst =
      if key ∈ l.map Prod.fst then l.map Prod.fst else l.map Prod.fst ++ [key] := by
  induction l with
  | nil => rfl
  | cons p l ih =>
    obtain ⟨k, v⟩ := p
    by_cases hk : k = key
    · simp [replace, hk]
    · have hne : ¬ key = k := Ne.symm hk
      simp only [replace, if_neg hk, List.map_cons, ih, List.mem_cons, hne, false_or]
      by_cases hm : key ∈ l.map Prod.fst
      · rw [if_pos hm, if_pos hm]
      · rw [if_neg hm, if_neg hm, List.cons_append]

theorem nodup_map_fst_replace {α β : Type} [DecidableEq α] {l : List (α × β)}
    (h : (l.map Prod.fst).Nodup) (key : α) (value : β) :
    ((replace key value l).map Prod.fst).Nodup := by
  rw [map_fst_replace]
  split
  · exact h
  · rename_i hk
    rw [List.nodup_append]
    refine ⟨h, List.nodup_singleton key, fun x hx y hy hxy => hk ?_⟩
    rw [List.mem_singleton] at hy
    rwa [← hy, ← hxy]

theorem mem_map_fst_replace {α β : Type} [DecidableEq α] (key : α) (value : β) (l : List (α × β))
    (k : α) : k ∈ (replace key value l).map Prod.fst ↔ k ∈ l.map Prod.fst ∨ k = key := by
  rw [map_fst_replace]
  split
  · rename_i hk
    refine ⟨Or.inl, fun h => h.elim id fun h => ?_⟩
    rwa [h]
  · rw [List.mem_append, List.mem_singleton]

theorem foldl_record_append (c : RateCache) (written : List Write) (w : Write) :
    (written ++ [w]).foldl record c = (written.foldl record c).record w := by
  rw [List.foldl_append]
  rfl

/-- The entry of a pair is the last write for it. -/
theorem stored?_foldl_record (validity : Nat) (written : List Write) (pair : CurrencyPair) :
    (written.foldl record (empty validity)).stored? pair =
      (lastWrite? written pair).map Write.entry := by
  induction written using List.reverseRecOn with
  | nil => rfl
  | append_singleton written w ih =>
    rw [foldl_record_append]
    by_cases h : pair = w.pair
    · subst h
      rw [lastWrite?_append_self, record, stored?_store_self]
      rfl
    · rw [lastWrite?_append_of_ne written h, record, stored?_store_of_ne _ _ h, ih]

theorem keys_foldl_record (validity : Nat) (written : List Write) :
    ((written.foldl record (empty validity)).entries.map Prod.fst).Perm
      (written.map Write.pair).dedup := by
  rw [List.perm_ext_iff_of_nodup ?_ (List.nodup_dedup _)]
  · intro pair
    rw [List.mem_dedup]
    induction written using List.reverseRecOn with
    | nil => rfl
    | append_singleton written w ih =>
      rw [foldl_record_append, record, store, mem_map_fst_replace, ih, List.map_append,
        List.mem_append]
      simp
  · induction written using List.reverseRecOn with
    | nil => exact List.nodup_nil
    | append_singleton written w ih =>
      rw [foldl_record_append]
      exact nodup_map_fst_replace ih _ _

theorem size_foldl_record (validity : Nat) (written : List Write) :
    (written.foldl record (empty validity)).size = (written.map Write.pair).dedup.length := by
  rw [← (keys_foldl_record validity written).length_eq, List.length_map]
  rfl

end RateCache

namespace Desk

open RateCache (record)

/-! ### What steps and runs do to the cache -/

theorem cache_step (d : Desk) {log : List Happening} (h : Tally d.opened d.waiting log)
    (e : Event) :
    (d.step e).1.cache = (e.write? log d.now).toList.foldl record d.cache := by
  cases e using step_cases d with
  | no_errand call he hs => rw [hs]; rfl
  | fresh call errand rate he hf hs => rw [hs]; rfl
  | not_fresh call errand he hf hs => rw [hs]; rfl
  | not_waiting number result hw hs =>
    have hq := h.question_eq number
    rw [hs]
    rw [hw] at hq
    cases result <;> simp [Event.write?, hq]
  | waiting number result errand hw hs =>
    have hq := h.question_eq number
    rw [hs]
    rw [hw] at hq
    cases result with
    | ok rate => simp [Event.write?, hq, record]
    | error fault => rfl
  | store pair rate => rfl
  | pass milliseconds => rfl
  | adopt settings => rfl

/-- **The cache replays the writes.** A run from an empty cache leaves in it what its writes
leave when they are recorded in their order. -/
theorem cache_run (settings : Settings) (validity : Nat) (events : List Event) :
    ((fresh settings validity).run events).1.cache =
      (writes ((fresh settings validity).transcript events)).foldl record (.empty validity) := by
  induction events using List.reverseRecOn with
  | nil => rfl
  | append_singleton events e ih =>
    have hnow : ((fresh settings validity).run events).1.now = clock events := by
      rw [now_run]
      exact Nat.zero_add _
    rw [run_append_event, cache_step _ (tally_run settings validity events), hnow, ih,
      writes_append_event, List.foldl_append]

/-- **The cache is the log of what was written.** At every moment of every run from an
empty cache, with any number of calls in flight and answers in any order, the entry of a
pair is its last write, with the instant at which it was written, and there are as many
entries as pairs written. No call, no fault, no passing of time and no change of the
settings touches the cache. An entry stays for good, and its instant never goes back. -/
theorem cache_is_log_of_writes (settings : Settings) (validity : Nat) (events : List Event) :
    let start := fresh settings validity
    let d := (start.run events).1
    let written := writes (start.transcript events)
    (∀ pair, d.cache.stored? pair = (lastWrite? written pair).map fun w => ⟨w.rate, w.time⟩) ∧
    d.cache.size = (written.map (·.pair)).dedup.length ∧
    (∀ call, (d.step (.call call)).1.cache = d.cache) ∧
    (∀ number fault, (d.step (.answer number (.error fault))).1.cache = d.cache) ∧
    (∀ milliseconds, (d.step (.pass milliseconds)).1.cache = d.cache) ∧
    (∀ adopted, (d.step (.adopt adopted)).1.cache = d.cache) ∧
    ∀ more pair entry, d.cache.stored? pair = some entry →
      ∃ later, (start.run (events ++ more)).1.cache.stored? pair = some later ∧
        entry.storedAt ≤ later.storedAt := by
  intro start d written
  have hstored : ∀ events pair, (start.run events).1.cache.stored? pair =
      (lastWrite? (writes (start.transcript events)) pair).map Write.entry := fun events pair => by
    rw [cache_run settings validity events, RateCache.stored?_foldl_record]
  have htally : Tally d.opened d.waiting (start.run events).2 := tally_run settings validity events
  refine ⟨hstored events, ?_, fun _ => cache_step d htally _, fun _ _ => cache_step d htally _,
    fun _ => cache_step d htally _, fun _ => cache_step d htally _, fun more pair entry h => ?_⟩
  · rw [← RateCache.size_foldl_record validity, ← cache_run]
  · rw [hstored events] at h
    obtain ⟨w, hw, rfl⟩ := Option.map_eq_some_iff.mp h
    have hsorted := writes_sorted start (events ++ more)
    rw [writes_append] at hsorted
    obtain ⟨later, hl, hle⟩ := lastWrite?_le hsorted hw
    refine ⟨later.entry, ?_, hle⟩
    rw [hstored, writes_append, hl]
    rfl

end Desk

end CurrencyDesk
