import CurrencyDesk.Proofs.Desk.Service
import Mathlib.Data.List.Nodup
/-!
# What is served for errands of different pairs

What a lookup comes to when nothing else goes on is said by `Desk.lookUp`: a fresh rate is
its result at once, and otherwise the source is asked once and its answer is the result
after the delay that it has, and the entry of the pair from that instant on. A desk that
serves calls together does for each of them just this, as long as they need the rates of
different pairs.

The invariant is that of every moment while calls are served (`Progress`). Each call that
has been taken is settled, with its reply in the log and its pair's entry as `lookUp` says,
or an answer to it is on its way that will lead there (`Pending`). A step settles one call
and touches the number and the pair of no other, so it is the frame of the others that has
to be shown. When no answer is left, all calls are settled, at the latest of their instants.

Key definitions: `Desk.lookUp`, `Pending`, `Settled`, `Progress`, `Served.Accounts`.
Key theorems: `Progress.reply`, `Progress.ask`, `Progress.settle`, `Taking.foldl`,
`Progress.foldl_arrive`, `serve_accounts`.
-/

namespace CurrencyDesk

open Desk (Happening repliesTo)
open Service (questions)

/-! ### A lookup by itself -/

/-- What a lookup comes to: its result, the instant at which it has it, the pairs that the
source is asked for, and the entry of its pair afterwards. -/
structure LookedUp where
  result : Except LookupError Binary64
  finished : Nat
  asked : List CurrencyPair
  entry : Option CacheEntry

/-- The entry of a pair after an answer of the source: a fault leaves it as it was. -/
def entryAfter (before : Option CacheEntry) (time : Nat) :
    Except RateFault Binary64 → Option CacheEntry
  | .ok rate => some ⟨rate, time⟩
  | .error _ => before

/-- What a lookup of a pair comes to that starts now, where the source is in a state. -/
def Desk.lookUp {σ : Type} (d : Desk) (source : RateSource σ) (state : σ) (pair : CurrencyPair) :
    LookedUp :=
  match d.cache.fresh? d.now pair with
  | some rate => ⟨.ok rate, d.now, [], d.cache.stored? pair⟩
  | none =>
    let answer := (source.ask state pair).1
    let time := d.now + answer.delay
    ⟨lookupResult pair answer.result, time, [pair],
      entryAfter (d.cache.stored? pair) time answer.result⟩

section

variable {σ : Type} {d : Desk} {source : RateSource σ} {state : σ} {pair : CurrencyPair}

theorem lookUp_of_fresh {rate : Binary64} (h : d.cache.fresh? d.now pair = some rate) :
    d.lookUp source state pair = ⟨.ok rate, d.now, [], d.cache.stored? pair⟩ := by
  simp only [Desk.lookUp, h]

theorem lookUp_of_not_fresh (h : d.cache.fresh? d.now pair = none) :
    d.lookUp source state pair =
      ⟨lookupResult pair (source.ask state pair).1.result, d.now + (source.ask state pair).1.delay,
        [pair], entryAfter (d.cache.stored? pair) (d.now + (source.ask state pair).1.delay)
          (source.ask state pair).1.result⟩ := by
  simp only [Desk.lookUp, h]

end

theorem RateCache.fresh?_congr {c c' : RateCache} {pair : CurrencyPair}
    (hv : c.validity = c'.validity) (hs : c.stored? pair = c'.stored? pair) (now : Nat) :
    c.fresh? now pair = c'.fresh? now pair := by
  have hfresh : c.isFresh now = c'.isFresh now := by
    funext e
    rw [isFresh, isFresh, hv]
  rw [fresh?, fresh?, hs, hfresh]

/-! ### The invariant -/

section Invariant

variable {σ : Type} (d : Desk) (source : RateSource σ) (state : σ)

/-- An answer is on its way to an errand, and will make of it what it comes to by itself. -/
structure Pending (desk : Desk) (log : List Happening) (errand : Errand) (due : Due) : Prop where
  waiting : desk.waiting.lookup due.number = some errand
  silent : repliesTo log due.number = []
  stored : desk.cache.stored? errand.pair = d.cache.stored? errand.pair
  later : desk.now ≤ due.time
  time : (d.lookUp source state errand.pair).finished = due.time
  result : (d.lookUp source state errand.pair).result = lookupResult errand.pair due.result
  entry : (d.lookUp source state errand.pair).entry =
    entryAfter (d.cache.stored? errand.pair) due.time due.result

/-- An errand has come to what it comes to by itself. -/
structure Settled (desk : Desk) (log : List Happening) (errand : Errand) (number : Nat) : Prop where
  reply : repliesTo log number = [errand.reply (d.lookUp source state errand.pair).result]
  stored : desk.cache.stored? errand.pair = (d.lookUp source state errand.pair).entry
  finished : (d.lookUp source state errand.pair).finished ≤ desk.now

/-- Where a desk stands that has taken errands, while some answers are on their way. The
errands are numbered as they came in. -/
structure Progress (errands : List Errand) (dues : List Due) (desk : Desk) (current : σ)
    (log : List Happening) : Prop where
  settings : desk.settings = d.settings
  validity : desk.cache.validity = d.cache.validity
  opened : desk.opened = d.opened + errands.length
  /-- Nothing is known of the numbers to come. -/
  unseen : ∀ number, desk.opened ≤ number →
    desk.waiting.lookup number = none ∧ repliesTo log number = []
  /-- The source has not been asked for other pairs. -/
  answers : ∀ pair, pair ∉ errands.map Errand.pair →
    (source.ask current pair).1 = (source.ask state pair).1
  asked : questions log = errands.flatMap fun e => (d.lookUp source state e.pair).asked
  untouched : ∀ pair, pair ∉ errands.map Errand.pair →
    desk.cache.stored? pair = d.cache.stored? pair
  /-- The clock stands at the start, or where an errand was finished. -/
  reached : desk.now = d.now ∨
    ∃ e ∈ errands, desk.now = (d.lookUp source state e.pair).finished
  start_le : d.now ≤ desk.now
  numbers : (dues.map Due.number).Nodup
  pending : ∀ due ∈ dues, ∃ e, (e, due.number) ∈ errands.zipIdx d.opened ∧
    Pending d source state desk log e due
  settled : ∀ e number, (e, number) ∈ errands.zipIdx d.opened →
    number ∉ dues.map Due.number → Settled d source state desk log e number

end Invariant

section Steps

variable {σ : Type} {d : Desk} {source : RateSource σ} {state current : σ} {desk desk' : Desk}
  {log log' : List Happening} {errands : List Errand} {errand : Errand} {dues rest : List Due}
  {due : Due}

theorem Pending.frame (h : Pending d source state desk log errand due)
    (hw : desk'.waiting.lookup due.number = desk.waiting.lookup due.number)
    (hr : repliesTo log' due.number = repliesTo log due.number)
    (hc : desk'.cache.stored? errand.pair = desk.cache.stored? errand.pair)
    (hn : desk'.now ≤ due.time) : Pending d source state desk' log' errand due :=
  { h with
    waiting := hw.trans h.waiting
    silent := hr.trans h.silent
    stored := hc.trans h.stored
    later := hn }

theorem Settled.frame {number : Nat} (h : Settled d source state desk log errand number)
    (hr : repliesTo log' number = repliesTo log number)
    (hc : desk'.cache.stored? errand.pair = desk.cache.stored? errand.pair)
    (hn : desk.now ≤ desk'.now) : Settled d source state desk' log' errand number :=
  ⟨hr.trans h.reply, hc.trans h.stored, Nat.le_trans h.finished hn⟩

theorem Progress.number_lt (h : Progress d source state errands dues desk current log) {e : Errand}
    {number : Nat} (hmem : (e, number) ∈ errands.zipIdx d.opened) : number < desk.opened := by
  have hlt := (List.mem_zipIdx hmem).2.1
  rwa [h.opened]

/-- Errands of different numbers need different pairs, and one number has one errand. -/
theorem pair_ne_of_number_ne (hpairs : (errands.map Errand.pair).Nodup) {e e' : Errand}
    {n n' start : Nat} (hmem : (e, n) ∈ errands.zipIdx start)
    (hmem' : (e', n') ∈ errands.zipIdx start) (hne : n ≠ n') : e.pair ≠ e'.pair := by
  obtain ⟨hle, hlt, he⟩ := List.mem_zipIdx hmem
  obtain ⟨hle', hlt', he'⟩ := List.mem_zipIdx hmem'
  intro hpair
  have hi : n - start < (errands.map Errand.pair).length := by
    rw [List.length_map]
    omega
  have hj : n' - start < (errands.map Errand.pair).length := by
    rw [List.length_map]
    omega
  have hsame : (errands.map Errand.pair)[n - start] = (errands.map Errand.pair)[n' - start] := by
    rw [List.getElem_map, List.getElem_map, ← he, ← he', hpair]
  have hindex : n - start = n' - start := (List.Nodup.getElem_inj_iff hpairs).mp hsame
  omega

theorem eq_of_mem_zipIdx {e e' : Errand} {n start : Nat} (hmem : (e, n) ∈ errands.zipIdx start)
    (hmem' : (e', n) ∈ errands.zipIdx start) : e = e' :=
  (List.mem_zipIdx hmem).2.2.trans (List.mem_zipIdx hmem').2.2.symm

theorem zipIdx_append_errand (errands : List Errand) (errand : Errand) (start : Nat) :
    (errands ++ [errand]).zipIdx start =
      errands.zipIdx start ++ [(errand, start + errands.length)] := by
  rw [List.zipIdx_append, List.zipIdx_singleton, Nat.add_comm]

/-- What is known of the pairs of some errands and one more is known of the first ones. -/
theorem not_mem_pairs {pair : CurrencyPair} (h : pair ∉ (errands ++ [errand]).map Errand.pair) :
    pair ∉ errands.map Errand.pair ∧ pair ≠ errand.pair := by
  rw [List.map_append, List.mem_append, not_or] at h
  exact ⟨h.1, fun heq => h.2 (List.mem_singleton.mpr heq)⟩

/-! ### Taking calls -/

theorem Progress.nil (hw : ∀ number, d.opened ≤ number → d.waiting.lookup number = none) :
    Progress d source state [] [] d state [] where
  settings := rfl
  validity := rfl
  opened := rfl
  unseen number hle := ⟨hw number hle, rfl⟩
  answers _ _ := rfl
  asked := rfl
  untouched _ _ := rfl
  reached := .inl rfl
  start_le := le_rfl
  numbers := List.nodup_nil
  pending due hdue := by cases hdue
  settled e number hmem := by cases hmem

theorem Progress.reply (h : Progress d source state errands dues desk current log)
    (hpair : errand.pair ∉ errands.map Errand.pair) {rate : Binary64}
    (hf : d.cache.fresh? d.now errand.pair = some rate) :
    Progress d source state (errands ++ [errand]) dues { desk with opened := desk.opened + 1 }
      current (log ++ [.replied desk.opened (errand.reply (.ok rate))]) := by
  have hlook : d.lookUp source state errand.pair = _ := lookUp_of_fresh hf
  have hother {number : Nat} (hlt : number < desk.opened) :
      repliesTo (log ++ [.replied desk.opened (errand.reply (.ok rate))]) number =
        repliesTo log number := by
    simp [Nat.ne_of_gt hlt]
  refine
    { settings := h.settings
      validity := h.validity
      opened := ?_
      unseen := fun number hle => ?_
      answers := fun pair hmem => h.answers pair (not_mem_pairs hmem).1
      asked := ?_
      untouched := fun pair hmem => h.untouched pair (not_mem_pairs hmem).1
      reached := ?_
      start_le := h.start_le
      numbers := h.numbers
      pending := fun due hdue => ?_
      settled := fun e number hmem hdue => ?_ }
  · rw [List.length_append, List.length_singleton, ← Nat.add_assoc, ← h.opened]
  · have hle' : desk.opened + 1 ≤ number := hle
    obtain ⟨hw, hr⟩ := h.unseen number (by omega)
    refine ⟨hw, ?_⟩
    rw [Desk.repliesTo_append, hr, Desk.repliesTo_replied, if_neg (by omega), List.append_nil]
  · simp [h.asked, hlook]
  · exact h.reached.imp_right fun ⟨e, he, hnow⟩ => ⟨e, List.mem_append_left _ he, hnow⟩
  · obtain ⟨e, hmem, hpending⟩ := h.pending due hdue
    refine ⟨e, ?_, hpending.frame rfl (hother (h.number_lt hmem)) rfl hpending.later⟩
    rw [zipIdx_append_errand]
    exact List.mem_append_left _ hmem
  · rw [zipIdx_append_errand] at hmem
    rcases List.mem_append.mp hmem with hmem | hmem
    · exact (h.settled e number hmem hdue).frame (hother (h.number_lt hmem)) rfl le_rfl
    · obtain ⟨rfl, rfl⟩ := Prod.mk.inj (List.mem_singleton.mp hmem)
      rw [← h.opened]
      refine ⟨?_, ?_, ?_⟩
      · rw [Desk.repliesTo_append, (h.unseen _ le_rfl).2, Desk.repliesTo_replied, if_pos rfl, hlook,
          List.nil_append]
      · rw [hlook]
        exact h.untouched _ hpair
      · rw [hlook]
        exact h.start_le

/-- A call that finds no fresh rate asks the source, and an answer is on its way. -/
theorem Progress.ask (h : Progress d source state errands dues desk current log)
    (hsource : source.Separate) (hnow : desk.now = d.now)
    (hpair : errand.pair ∉ errands.map Errand.pair)
    (hf : d.cache.fresh? d.now errand.pair = none) :
    Progress d source state (errands ++ [errand])
      (⟨desk.now + (source.ask current errand.pair).1.delay, desk.opened,
        (source.ask current errand.pair).1.result⟩ :: dues)
      { desk with
        opened := desk.opened + 1
        waiting := desk.waiting ++ [(desk.opened, errand)] }
      (source.ask current errand.pair).2 (log ++ [.asked desk.opened errand.pair]) := by
  have hlook : d.lookUp source state errand.pair = _ := lookUp_of_not_fresh hf
  have hanswer := h.answers _ hpair
  refine
    { settings := h.settings
      validity := h.validity
      opened := ?_
      unseen := fun number hle => ?_
      answers := fun pair hmem => ?_
      asked := ?_
      untouched := fun pair hmem => h.untouched pair (not_mem_pairs hmem).1
      reached := ?_
      start_le := h.start_le
      numbers := ?_
      pending := fun due hdue => ?_
      settled := fun e number hmem hdue => ?_ }
  · rw [List.length_append, List.length_singleton, ← Nat.add_assoc, ← h.opened]
  · have hle' : desk.opened + 1 ≤ number := hle
    obtain ⟨hw, hr⟩ := h.unseen number (by omega)
    refine ⟨?_, ?_⟩
    · rw [Desk.lookup_append_of_ne _ (by omega), hw]
    · rw [Desk.repliesTo_append, hr, Desk.repliesTo_asked, List.append_nil]
  · obtain ⟨hmem, hne⟩ := not_mem_pairs hmem
    rw [hsource current pair errand.pair hne, h.answers pair hmem]
  · simp [h.asked, hlook]
  · exact h.reached.imp_right fun ⟨e, he, hnow⟩ => ⟨e, List.mem_append_left _ he, hnow⟩
  · rw [List.map_cons, List.nodup_cons]
    refine ⟨fun hmem => ?_, h.numbers⟩
    obtain ⟨due, hdue, heq⟩ := List.mem_map.mp hmem
    obtain ⟨e, hmem, -⟩ := h.pending due hdue
    exact absurd heq (Nat.ne_of_lt (h.number_lt hmem))
  · rw [zipIdx_append_errand, ← h.opened]
    rcases List.mem_cons.mp hdue with rfl | hdue
    · refine ⟨errand, List.mem_append_right _ (List.mem_singleton.mpr rfl), ?_⟩
      exact
        { waiting := by simp [List.lookup_append, (h.unseen _ le_rfl).1]
          silent := by simp [(h.unseen _ le_rfl).2]
          stored := h.untouched _ hpair
          later := Nat.le_add_right _ _
          time := by rw [hlook, hanswer, hnow]
          result := by rw [hlook, hanswer]
          entry := by rw [hlook, hanswer, hnow] }
    · obtain ⟨e, hmem, hpending⟩ := h.pending due hdue
      refine ⟨e, List.mem_append_left _ hmem, hpending.frame ?_ ?_ rfl hpending.later⟩
      · exact Desk.lookup_append_of_ne _ (Nat.ne_of_lt (h.number_lt hmem)) _
      · rw [Desk.repliesTo_append, Desk.repliesTo_asked, List.append_nil]
  · rw [zipIdx_append_errand, ← h.opened] at hmem
    rw [List.map_cons, List.mem_cons, not_or] at hdue
    rcases List.mem_append.mp hmem with hmem | hmem
    · refine (h.settled e number hmem hdue.2).frame ?_ rfl le_rfl
      rw [Desk.repliesTo_append, Desk.repliesTo_asked, List.append_nil]
    · exact absurd (Prod.mk.inj (List.mem_singleton.mp hmem)).2 hdue.1

/-! ### Answers -/

theorem Progress.perm (h : Progress d source state errands dues desk current log)
    (hperm : rest.Perm dues) : Progress d source state errands rest desk current log :=
  { h with
    numbers := (hperm.map _).nodup_iff.mpr h.numbers
    pending := fun due hdue => h.pending due (hperm.subset hdue)
    settled := fun e number hmem hdue =>
      h.settled e number hmem fun hin => hdue ((hperm.map _).symm.subset hin) }

/-- Time passes up to the first answer. -/
theorem Progress.wait (h : Progress d source state errands (due :: rest) desk current log)
    (hfirst : ∀ later ∈ rest, due.time ≤ later.time) :
    Progress d source state errands (due :: rest) { desk with now := due.time } current log := by
  obtain ⟨e, hmem, hdue⟩ := h.pending due List.mem_cons_self
  have hlater : desk.now ≤ due.time := hdue.later
  refine
    { h with
      reached := .inr ⟨e, ?_, hdue.time.symm⟩
      start_le := Nat.le_trans h.start_le hlater
      pending := fun later hin => ?_
      settled := fun e number hmem hdue => ?_ }
  · exact (List.mem_zipIdx hmem).2.2 ▸ List.getElem_mem _
  · obtain ⟨e, hmem, hpending⟩ := h.pending later hin
    refine ⟨e, hmem, hpending.frame rfl rfl rfl ?_⟩
    rcases List.mem_cons.mp hin with rfl | hin
    · exact le_rfl
    · exact hfirst later hin
  · exact (h.settled e number hmem hdue).frame rfl rfl hlater

theorem stored?_step_answer {number : Nat} (hw : desk.waiting.lookup number = some errand)
    (result : Except RateFault Binary64) (pair : CurrencyPair) :
    (desk.step (.answer number result)).1.cache.stored? pair =
      if pair = errand.pair then entryAfter (desk.cache.stored? pair) desk.now result
      else desk.cache.stored? pair := by
  rw [Desk.step_answer_of_waiting desk hw]
  cases result with
  | ok rate =>
    by_cases h : pair = errand.pair
    · rw [if_pos h, h]
      exact desk.cache.stored?_store_self desk.now errand.pair rate
    · rw [if_neg h]
      exact desk.cache.stored?_store_of_ne desk.now h rate
  | error fault =>
    simp only [entryAfter, ite_self]

/-- An answer settles its errand and touches no other. -/
theorem Progress.settle (h : Progress d source state errands (due :: rest) desk current log)
    (hpairs : (errands.map Errand.pair).Nodup) (hnow : desk.now = due.time) :
    Progress d source state errands rest (desk.step (.answer due.number due.result)).1 current
      (log ++ (desk.step (.answer due.number due.result)).2) := by
  obtain ⟨errand, hin, hdue⟩ := h.pending due List.mem_cons_self
  obtain ⟨hnotin, hnumbers⟩ := List.nodup_cons.mp h.numbers
  have hother {e : Errand} {number : Nat} (hmem : (e, number) ∈ errands.zipIdx d.opened)
      (hne : number ≠ due.number) : e.pair ≠ errand.pair :=
    pair_ne_of_number_ne hpairs hmem hin hne
  have hstored := stored?_step_answer hdue.waiting due.result
  rw [Desk.step_answer_of_waiting desk hdue.waiting] at hstored ⊢
  refine
    { settings := h.settings
      validity := ?_
      opened := h.opened
      unseen := fun number hle => ?_
      answers := h.answers
      asked := ?_
      untouched := fun pair hmem => ?_
      reached := h.reached
      start_le := h.start_le
      numbers := hnumbers
      pending := fun later hlater => ?_
      settled := fun e number hmem hrest => ?_ }
  · rw [← h.validity]
    cases due.result <;> rfl
  · have hlt := h.number_lt hin
    obtain ⟨hw, hr⟩ := h.unseen number hle
    have hne : due.number ≠ number := Nat.ne_of_lt (Nat.lt_of_lt_of_le hlt hle)
    refine ⟨?_, ?_⟩
    · simp only [Desk.settle]
      rw [Desk.lookup_filter_ne, hw, ite_self]
    · rw [Desk.repliesTo_append, hr, Desk.repliesTo_replied, if_neg hne, List.append_nil]
  · rw [Service.questions_append, Service.questions_replied, List.append_nil, h.asked]
  · have hne : pair ≠ errand.pair := fun heq =>
      hmem (heq ▸ List.mem_map_of_mem ((List.mem_zipIdx hin).2.2 ▸ List.getElem_mem _))
    rw [hstored, if_neg hne, h.untouched pair hmem]
  · obtain ⟨e, hmem, hpending⟩ := h.pending later (List.mem_cons_of_mem _ hlater)
    have hne : later.number ≠ due.number := fun heq =>
      hnotin (heq ▸ List.mem_map_of_mem hlater)
    refine ⟨e, hmem, hpending.frame ?_ ?_ ?_ hpending.later⟩
    · simp only [Desk.settle]
      rw [Desk.lookup_filter_ne, if_neg hne]
    · rw [Desk.repliesTo_append, Desk.repliesTo_replied, if_neg hne.symm, List.append_nil]
    · rw [hstored, if_neg (hother hmem hne)]
  · by_cases hne : number = due.number
    · subst hne
      obtain rfl := eq_of_mem_zipIdx hmem hin
      refine ⟨?_, ?_, ?_⟩
      · rw [Desk.repliesTo_append, hdue.silent, Desk.repliesTo_replied, if_pos rfl, hdue.result,
          List.nil_append]
      · rw [hstored, if_pos rfl, hdue.stored, hdue.entry, hnow]
      · rw [hdue.time]
        exact Nat.le_of_eq hnow.symm
    · have hmem' : number ∉ (due :: rest).map Due.number := by
        rw [List.map_cons, List.mem_cons, not_or]
        exact ⟨hne, hrest⟩
      refine (h.settled e number hmem hmem').frame ?_ ?_ le_rfl
      · rw [Desk.repliesTo_append, Desk.repliesTo_replied, if_neg (Ne.symm hne), List.append_nil]
      · rw [hstored, if_neg (hother hmem hne)]

/-! ### Whole services -/

/-- Where a service stands while calls are taken: no time has passed, and the answers on their
way stand in order. -/
structure Taking (d : Desk) (source : RateSource σ) (state : σ) (errands : List Errand)
    (s : Service σ) : Prop where
  progress : Progress d source state errands s.due s.desk s.state s.log
  now : s.desk.now = d.now
  sorted : s.due.Pairwise (·.time ≤ ·.time)

theorem Taking.take {s : Service σ} (h : Taking d source state errands s)
    (hsource : source.Separate) (hpairs : ((errands ++ [errand]).map Errand.pair).Nodup)
    {call : Call} (he : call.errand? d.settings = some errand) :
    Taking d source state (errands ++ [errand]) (s.take source call) := by
  obtain ⟨hprogress, hnow, hsorted⟩ := h
  have hnew := (hprogress.unseen _ le_rfl).1
  have hpair : errand.pair ∉ errands.map Errand.pair := by
    rw [List.map_append, List.map_singleton] at hpairs
    exact fun hmem => (List.nodup_append.mp hpairs).2.2 _ hmem _ (List.mem_singleton.mpr rfl) rfl
  have he' : call.errand? s.desk.settings = some errand := by rw [hprogress.settings, he]
  have hfresh : s.desk.cache.fresh? s.desk.now errand.pair = d.cache.fresh? d.now errand.pair := by
    rw [hnow]
    exact RateCache.fresh?_congr hprogress.validity (hprogress.untouched _ hpair) d.now
  rcases hf : d.cache.fresh? d.now errand.pair with _ | rate
  · have hask := hprogress.ask hsource hnow hpair hf
    rw [Service.take_of_not_fresh hnew he' (hfresh.trans hf), Service.pass]
    split_ifs with hdelay
    · -- an answer without delay is there at once
      refine ⟨hask.settle hpairs ?_, ?_, hsorted⟩
      · rw [hdelay]
        rfl
      · rw [Service.happen_eq]
        exact (Desk.now_step _ _).trans hnow
    · exact ⟨hask.perm (Due.perm_insert _ _), hnow, Due.sorted_insert _ hsorted⟩
  · rw [Service.take_of_fresh hnew he' (hfresh.trans hf)]
    exact ⟨hprogress.reply hpair hf, hnow, hsorted⟩

theorem Taking.foldl {s : Service σ} (h : Taking d source state errands s)
    (hsource : source.Separate) {calls : List Call} {more : List Errand}
    (hcalls : calls.map (·.errand? d.settings) = more.map some)
    (hpairs : ((errands ++ more).map Errand.pair).Nodup) :
    Taking d source state (errands ++ more) (calls.foldl (Service.take source) s) := by
  induction calls generalizing errands more s with
  | nil =>
    obtain rfl : more = [] := List.map_eq_nil_iff.mp hcalls.symm
    rwa [List.append_nil]
  | cons call calls ih =>
    cases more with
    | nil => cases hcalls
    | cons errand more =>
      rw [List.map_cons, List.map_cons, List.cons.injEq] at hcalls
      rw [List.append_cons] at hpairs ⊢
      have hfirst : ((errands ++ [errand]).map Errand.pair).Nodup := by
        rw [List.map_append] at hpairs
        exact hpairs.of_append_left
      exact ih (h.take hsource hfirst hcalls.1) hcalls.2 hpairs

theorem Progress.foldl_arrive (hpairs : (errands.map Errand.pair).Nodup) :
    ∀ (dues : List Due) {s : Service σ},
    Progress d source state errands dues s.desk s.state s.log →
    dues.Pairwise (·.time ≤ ·.time) →
      Progress d source state errands [] (dues.foldl Service.arrive s).desk
        (dues.foldl Service.arrive s).state (dues.foldl Service.arrive s).log
  | [], _, h, _ => h
  | due :: rest, s, h, hsorted => by
    obtain ⟨hfirst, hrest⟩ := List.pairwise_cons.mp hsorted
    obtain ⟨e, -, hdue⟩ := h.pending due List.mem_cons_self
    have hsettled := (h.wait hfirst).settle hpairs rfl
    rw [List.foldl_cons, Service.arrive_eq hdue.later]
    exact Progress.foldl_arrive hpairs rest hsettled hrest

/-- All calls that have been taken come to what they come to by themselves. -/
theorem Taking.close {s : Service σ} (h : Taking d source state errands s)
    (hpairs : (errands.map Errand.pair).Nodup) :
    Progress d source state errands [] s.close.desk s.close.state s.close.log :=
  Progress.foldl_arrive hpairs s.due h.progress h.sorted

end Steps

/-! ### What is served -/

/-- What was served for errands is what each of them comes to by itself. -/
structure Served.Accounts {σ : Type} (d : Desk) (source : RateSource σ) (state : σ)
    (errands : List Errand) (served : Served σ) : Prop where
  replies : served.replies = errands.map fun e => e.reply (d.lookUp source state e.pair).result
  asked : served.asked = errands.flatMap fun e => (d.lookUp source state e.pair).asked
  entries : ∀ e ∈ errands,
    served.desk.cache.stored? e.pair = (d.lookUp source state e.pair).entry
  untouched : ∀ pair, pair ∉ errands.map Errand.pair →
    served.desk.cache.stored? pair = d.cache.stored? pair
  now : served.desk.now =
    (errands.map fun e => (d.lookUp source state e.pair).finished).foldr max d.now

theorem foldr_max_eq {l : List Nat} {start m : Nat} (hstart : start ≤ m) (hle : ∀ n ∈ l, n ≤ m)
    (hmem : m = start ∨ m ∈ l) : l.foldr max start = m := by
  refine Nat.le_antisymm ?_ ?_
  · clear hmem
    induction l with
    | nil => exact hstart
    | cons n l ih =>
      exact Nat.max_le.mpr ⟨hle n List.mem_cons_self,
        ih fun k hk => hle k (List.mem_cons_of_mem n hk)⟩
  · clear hstart hle
    induction l with
    | nil => exact Nat.le_of_eq (hmem.resolve_right List.not_mem_nil)
    | cons n l ih =>
      rw [List.foldr_cons]
      rcases hmem with hm | hm
      · have := ih (.inl hm)
        omega
      · rcases List.mem_cons.mp hm with rfl | hm
        · omega
        · have := ih (.inr hm)
          omega

/-- A view of numbers is one of the elements that have them. -/
theorem filterMap_range_eq_map {α β : Type} {l : List α} {start : Nat} {g : Nat → Option β}
    {f : α → β} (h : ∀ a n, (a, n) ∈ l.zipIdx start → g n = some (f a)) :
    ((List.range l.length).filterMap fun n => g (start + n)) = l.map f := by
  induction l generalizing start with
  | nil => rfl
  | cons a l ih =>
    rw [List.zipIdx_cons] at h
    have hfirst : g start = some (f a) := h a start List.mem_cons_self
    have hrest := ih fun b n hmem => h b n (List.mem_cons_of_mem _ hmem)
    rw [List.length_cons, List.range_succ_eq_map, List.filterMap_cons, Nat.add_zero, hfirst,
      List.filterMap_map, List.map_cons, ← hrest]
    simp only [Function.comp_def, Nat.succ_eq_add_one, Nat.add_assoc, Nat.add_comm 1]

section Serve

variable {σ : Type} {d : Desk} {source : RateSource σ} {state : σ} {errands : List Errand}
  {calls : List Call}

/-- **A desk that serves lookups of different pairs makes of each what it comes to by
itself.** -/
theorem serve_accounts (hw : ∀ number, d.opened ≤ number → d.waiting.lookup number = none)
    (hsource : source.Separate) (hcalls : calls.map (·.errand? d.settings) = errands.map some)
    (hpairs : (errands.map Errand.pair).Nodup) :
    (d.serve source state calls).Accounts d source state errands := by
  have hstart : Taking d source state [] ⟨d, state, [], []⟩ :=
    ⟨Progress.nil hw, rfl, List.Pairwise.nil⟩
  have htaken := hstart.foldl hsource hcalls hpairs
  rw [List.nil_append] at htaken
  have hdone := htaken.close hpairs
  have hlength : calls.length = errands.length := by
    simpa using congrArg List.length hcalls
  have hsettled (e : Errand) (number : Nat) (hmem : (e, number) ∈ errands.zipIdx d.opened) :=
    hdone.settled e number hmem List.not_mem_nil
  have hnumbered (e : Errand) (he : e ∈ errands) :
      ∃ number, (e, number) ∈ errands.zipIdx d.opened := by
    obtain ⟨i, hi⟩ := List.mem_iff_getElem?.mp he
    exact ⟨d.opened + i, List.mk_add_mem_zipIdx_iff_getElem?.mpr hi⟩
  refine ⟨?_, hdone.asked, fun e he => ?_, hdone.untouched, ?_⟩
  · simp only [Desk.serve, hlength]
    refine filterMap_range_eq_map fun e number hmem => ?_
    rw [Service.reply?_eq]
    exact congrArg List.head? (hsettled e number hmem).reply
  · obtain ⟨number, hmem⟩ := hnumbered e he
    exact (hsettled e number hmem).stored
  · refine (foldr_max_eq hdone.start_le ?_ ?_).symm
    · intro n hn
      obtain ⟨e, he, rfl⟩ := List.mem_map.mp hn
      obtain ⟨number, hmem⟩ := hnumbered e he
      exact (hsettled e number hmem).finished
    · refine hdone.reached.imp_right fun hreached => ?_
      obtain ⟨e, he, hnow⟩ := hreached
      exact List.mem_map.mpr ⟨e, he, hnow.symm⟩

end Serve

end CurrencyDesk
