import CurrencyDesk.Proofs.Desk.Serving
import Mathlib.Data.List.Forall2
import Mathlib.Data.List.Perm.Basic
/-!
# Lookups of different pairs do not interact

Calls that come in together and need the rates of different pairs are served as if each came
in alone: with the same reply, the same questions to the source and the same entry of its
pair, while the entries of other pairs stay as they are. Together they take as long as the
one that takes longest. Nothing of this depends on their order, so calls in another order
have the same replies and leave the same entries at the same instant.

All of it follows from what serving errands comes to (`serve_accounts`), which is read once
for all calls and once for each of them.

Key definitions: `Call.pair?`, `Served.Separately`.
Key theorems: `serve_separately`, `serve_together`.
-/

namespace CurrencyDesk

/-- The pair whose rate a call needs, if it needs one. -/
def Call.pair? (settings : Settings) (call : Call) : Option CurrencyPair :=
  (call.errand? settings).map Errand.pair

/-- What was served for calls is what is served for each of them alone. -/
structure Served.Separately {σ : Type} (d : Desk) (source : RateSource σ) (state : σ)
    (calls : List Call) (served : Served σ) : Prop where
  /-- Each call has the one reply that it has alone. -/
  replies : List.Forall₂ (fun call reply => (d.serve source state [call]).replies = [reply])
    calls served.replies
  /-- The questions are those of the calls alone, in the order of the calls. -/
  asked : served.asked = calls.flatMap fun call => (d.serve source state [call]).asked
  /-- Each pair has the questions and the entry that its call leads to alone. -/
  each : ∀ call ∈ calls, ∀ pair, call.pair? d.settings = some pair →
    served.asked.filter (· = pair) = (d.serve source state [call]).asked ∧
      served.desk.cache.stored? pair = (d.serve source state [call]).desk.cache.stored? pair
  /-- The entries of other pairs are unchanged. -/
  untouched : ∀ pair, some pair ∉ calls.map (·.pair? d.settings) →
    served.desk.cache.stored? pair = d.cache.stored? pair
  /-- The time that passes is the longest that a call takes alone. -/
  now : served.desk.now = d.now +
    (calls.map fun call => (d.serve source state [call]).desk.now - d.now).foldr max 0

/-! ### Lists side by side -/

section Lists

variable {α β γ : Type} {R : α → β → Prop} {as : List α} {bs : List β}

theorem forall₂_of_map_eq_map_some {f : α → Option β} (h : as.map f = bs.map some) :
    List.Forall₂ (fun a b => f a = some b) as bs := by
  induction as generalizing bs with
  | nil =>
    obtain rfl : bs = [] := List.map_eq_nil_iff.mp h.symm
    exact .nil
  | cons a as ih =>
    cases bs with
    | nil => cases h
    | cons b bs =>
      rw [List.map_cons, List.map_cons, List.cons.injEq] at h
      exact .cons h.1 (ih h.2)

theorem map_eq_map_of_forall₂ {f : α → γ} {g : β → γ} (h : List.Forall₂ R as bs)
    (hfg : ∀ a b, R a b → f a = g b) : as.map f = bs.map g := by
  induction h with
  | nil => rfl
  | cons hab _ ih => rw [List.map_cons, List.map_cons, hfg _ _ hab, ih]

theorem map_eq_map_some_filterMap {f : α → Option β} (h : ∀ a ∈ as, (f a).isSome) :
    as.map f = (as.filterMap f).map some := by
  induction as with
  | nil => rfl
  | cons a as ih =>
    obtain ⟨b, hb⟩ := Option.isSome_iff_exists.mp (h a List.mem_cons_self)
    rw [List.map_cons, List.filterMap_cons, hb, List.map_cons,
      ih fun a ha => h a (List.mem_cons_of_mem _ ha)]

theorem foldr_max_eq_add (l : List Nat) (start : Nat) : l.foldr max start =
    start + (l.map fun n => max n start - start).foldr max 0 := by
  induction l with
  | nil => rfl
  | cons n l ih =>
    rw [List.foldr_cons, List.map_cons, List.foldr_cons, ih]
    omega

end Lists

section

variable {σ : Type} {d : Desk} {source : RateSource σ} {state : σ} {errands : List Errand}
  {calls : List Call}

theorem mem_lookUp_asked {pair other : CurrencyPair}
    (h : other ∈ (d.lookUp source state pair).asked) : other = pair := by
  rcases hf : d.cache.fresh? d.now pair with _ | rate
  · rw [lookUp_of_not_fresh hf] at h
    exact List.mem_singleton.mp h
  · rw [lookUp_of_fresh hf] at h
    cases h

theorem filter_asked (hpairs : (errands.map Errand.pair).Nodup) {errand : Errand}
    (hmem : errand ∈ errands) :
    (errands.flatMap fun e => (d.lookUp source state e.pair).asked).filter (· = errand.pair) =
      (d.lookUp source state errand.pair).asked := by
  have hown : (d.lookUp source state errand.pair).asked.filter (· = errand.pair) =
      (d.lookUp source state errand.pair).asked := by
    rw [List.filter_eq_self]
    exact fun pair hpair => decide_eq_true (mem_lookUp_asked hpair)
  have hother {e : Errand} (hne : e.pair ≠ errand.pair) :
      (d.lookUp source state e.pair).asked.filter (· = errand.pair) = [] := by
    rw [List.filter_eq_nil_iff]
    intro pair hpair
    rw [mem_lookUp_asked hpair, decide_eq_true_eq]
    exact hne
  induction errands with
  | nil => cases hmem
  | cons e errands ih =>
    rw [List.map_cons, List.nodup_cons] at hpairs
    rw [List.flatMap_cons, List.filter_append]
    rcases List.mem_cons.mp hmem with rfl | hmem
    · have hrest : (errands.flatMap fun e => (d.lookUp source state e.pair).asked).filter
          (· = errand.pair) = [] := by
        rw [List.filter_flatMap, List.flatMap_eq_nil_iff]
        exact fun e he => hother fun heq => hpairs.1 (heq ▸ List.mem_map_of_mem he)
      rw [hown, hrest, List.append_nil]
    · have hne : e.pair ≠ errand.pair := fun heq => hpairs.1 (heq ▸ List.mem_map_of_mem hmem)
      rw [hother hne, ih hpairs.2 hmem, List.nil_append]

theorem serve_accounts_singleton
    (hw : ∀ number, d.opened ≤ number → d.waiting.lookup number = none)
    (hsource : source.Separate) {call : Call} {errand : Errand}
    (he : call.errand? d.settings = some errand) :
    (d.serve source state [call]).Accounts d source state [errand] :=
  serve_accounts hw hsource (by rw [List.map_singleton, he, List.map_singleton])
    (List.nodup_singleton _)

/-- **Calls that need different pairs are served as each of them is alone.** -/
theorem serve_separately (hw : ∀ number, d.opened ≤ number → d.waiting.lookup number = none)
    (hsource : source.Separate) (hsome : ∀ call ∈ calls, (call.pair? d.settings).isSome)
    (hpairs : (calls.map (·.pair? d.settings)).Nodup) :
    (d.serve source state calls).Separately d source state calls := by
  have hcalls : calls.map (·.errand? d.settings) =
      (calls.filterMap (·.errand? d.settings)).map some :=
    map_eq_map_some_filterMap fun call hcall => by
      simpa [Call.pair?] using hsome call hcall
  generalize calls.filterMap (·.errand? d.settings) = errands at hcalls
  have hboth := forall₂_of_map_eq_map_some hcalls
  have hpair : calls.map (·.pair? d.settings) = errands.map fun e => some e.pair :=
    map_eq_map_of_forall₂ hboth fun call e he => by rw [Call.pair?, he, Option.map_some]
  have hnodup : (errands.map Errand.pair).Nodup := by
    rw [hpair] at hpairs
    refine List.Nodup.of_map some ?_
    rwa [List.map_map]
  have hall : (d.serve source state calls).Accounts d source state errands :=
    serve_accounts hw hsource hcalls hnodup
  have halone {call : Call} {e : Errand} (he : call.errand? d.settings = some e) :
      (d.serve source state [call]).Accounts d source state [e] :=
    serve_accounts_singleton hw hsource he
  refine ⟨?_, ?_, fun call hcall pair hp => ?_, fun pair hp => ?_, ?_⟩
  · rw [hall.replies, List.forall₂_map_right_iff]
    exact hboth.imp fun call e he => (halone he).replies
  · rw [hall.asked, List.flatMap_def, List.flatMap_def]
    refine congrArg List.flatten (map_eq_map_of_forall₂ hboth fun call e he => ?_).symm
    rw [(halone he).asked, List.flatMap_singleton]
  · obtain ⟨e, he, rfl⟩ := Option.map_eq_some_iff.mp hp
    have hmem : e ∈ errands := by
      have : some e ∈ errands.map some := hcalls ▸ he ▸ List.mem_map_of_mem hcall
      simpa using this
    refine ⟨?_, ?_⟩
    · rw [hall.asked, filter_asked hnodup hmem, (halone he).asked, List.flatMap_singleton]
    · rw [hall.entries e hmem, (halone he).entries e (List.mem_singleton.mpr rfl)]
  · refine hall.untouched pair fun hmem => hp ?_
    obtain ⟨e, he, rfl⟩ := List.mem_map.mp hmem
    exact hpair ▸ List.mem_map_of_mem he
  · rw [hall.now, foldr_max_eq_add, List.map_map]
    refine congrArg (fun l : List Nat => d.now + l.foldr max 0)
      (map_eq_map_of_forall₂ hboth fun call e he => ?_).symm
    rw [(halone he).now]
    rfl

/-! ### Calls in another order -/

/-- Each call with its reply: the pairing does not depend on what else is served. -/
theorem Served.Separately.zip_replies {served : Served σ}
    (h : served.Separately d source state calls) : calls.zip served.replies =
      calls.flatMap fun call => (d.serve source state [call]).replies.map (call, ·) := by
  have hreplies := h.replies
  generalize served.replies = replies at hreplies
  clear h
  induction hreplies with
  | nil => rfl
  | cons hreply _ ih =>
    rw [List.zip_cons_cons, List.flatMap_cons, hreply, ih, List.map_singleton,
      List.singleton_append]

theorem Served.Separately.perm {calls' : List Call} {served served' : Served σ}
    (h : served.Separately d source state calls) (h' : served'.Separately d source state calls')
    (hperm : calls'.Perm calls) :
    (calls'.zip served'.replies).Perm (calls.zip served.replies) ∧
      served'.asked.Perm served.asked ∧
      (∀ pair, served'.desk.cache.stored? pair = served.desk.cache.stored? pair) ∧
      served'.desk.now = served.desk.now := by
  refine ⟨?_, ?_, fun pair => ?_, ?_⟩
  · rw [h.zip_replies, h'.zip_replies]
    exact hperm.flatMap_right _
  · rw [h.asked, h'.asked]
    exact hperm.flatMap_right _
  · by_cases hmem : some pair ∈ calls.map (·.pair? d.settings)
    · obtain ⟨call, hcall, hp⟩ := List.mem_map.mp hmem
      rw [(h.each call hcall pair hp).2, (h'.each call (hperm.symm.subset hcall) pair hp).2]
    · have hmem' : some pair ∉ calls'.map (·.pair? d.settings) := fun hin =>
        hmem ((hperm.map _).subset hin)
      rw [h.untouched pair hmem, h'.untouched pair hmem']
  · rw [h.now, h'.now]
    exact congrArg (d.now + ·) ((hperm.map _).foldr_eq 0)

end

/-- **Lookups of different pairs that come in together do not interact.** At every desk that
a run leads to, and with every source that keeps pairs apart, they are served as each of them
is alone, and the order in which they come in shows in the order of the replies and of the
questions alone. -/
theorem serve_together {σ : Type} {source : RateSource σ} (hsource : source.Separate) (state : σ)
    (settings : Settings) (validity : Nat) (events : List Desk.Event) (calls : List Call) :
    let d := ((Desk.fresh settings validity).run events).1
    (∀ call ∈ calls, (call.pair? d.settings).isSome) →
    (calls.map (·.pair? d.settings)).Nodup →
    let together := d.serve source state calls
    together.Separately d source state calls ∧
      ∀ calls' : List Call, calls'.Perm calls →
        let permuted := d.serve source state calls'
        (calls'.zip permuted.replies).Perm (calls.zip together.replies) ∧
          permuted.replies.length = calls'.length ∧
          permuted.asked.Perm together.asked ∧
          (∀ pair, permuted.desk.cache.stored? pair = together.desk.cache.stored? pair) ∧
          permuted.desk.now = together.desk.now := by
  intro d hsome hpairs together
  have htally := Desk.tally_run settings validity events
  have hw (number : Nat) (hle : d.opened ≤ number) : d.waiting.lookup number = none :=
    htally.lookup_of_le hle
  have hall : together.Separately d source state calls :=
    serve_separately hw hsource hsome hpairs
  refine ⟨hall, fun calls' hperm => ?_⟩
  have hsome' : ∀ call ∈ calls', (call.pair? d.settings).isSome := fun call hcall =>
    hsome call (hperm.subset hcall)
  have hpairs' : (calls'.map (·.pair? d.settings)).Nodup :=
    (hperm.map _).nodup_iff.mpr hpairs
  have hall' : (d.serve source state calls').Separately d source state calls' :=
    serve_separately hw hsource hsome' hpairs'
  obtain ⟨hreplies, hrest⟩ := hall.perm hall' hperm
  exact ⟨hreplies, hall'.replies.length_eq.symm, hrest⟩

/-- Two questions that are answered after five and two seconds, one with a fault, and a rate
from the cache take five seconds together. -/
theorem serve_together_of_three_delays :
    let d := ((Desk.fresh (.byDefault "USD") 10).run [.store ⟨"chf", "usd"⟩ (.ofInt 1), .pass 3]).1
    let state : Prepared :=
      [(⟨"usd", "jpy"⟩, [⟨5000, .ok (.ofInt 110)⟩]), (⟨"eur", "gbp"⟩, [⟨2000, .error .missing⟩])]
    let calls : List Call := [.rate "usd" "JPY", .rate "EUR" "gbp", .rate "chf" "usd"]
    let together := d.serve Prepared.source state calls
    let reversed := d.serve Prepared.source state calls.reverse
    (∀ call ∈ calls, (call.pair? d.settings).isSome) ∧ (calls.map (·.pair? d.settings)).Nodup ∧
      together.Separately d Prepared.source state calls ∧
      together.asked = [⟨"usd", "jpy"⟩, ⟨"eur", "gbp"⟩] ∧ together.desk.now = 5003 ∧
      (calls.reverse.zip reversed.replies).Perm (calls.zip together.replies) := by
  intro d state calls together reversed
  have hsome : ∀ call ∈ calls, (call.pair? d.settings).isSome := by decide
  have hpairs : (calls.map (·.pair? d.settings)).Nodup := by decide
  obtain ⟨hseparately, hpermuted⟩ := serve_together Prepared.separate_source state
    (.byDefault "USD") 10 [.store ⟨"chf", "usd"⟩ (.ofInt 1), .pass 3] calls hsome hpairs
  refine ⟨hsome, hpairs, hseparately, ?_, ?_, ?_⟩
  · decide +kernel
  · decide +kernel
  · exact (hpermuted calls.reverse (List.reverse_perm calls)).1

end CurrencyDesk
