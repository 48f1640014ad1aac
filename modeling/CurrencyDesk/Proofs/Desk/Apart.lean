import CurrencyDesk.Proofs.Desk.Sequence
import CurrencyDesk.Proofs.Desk.Together
/-!
# Pairs do not influence each other

A desk that does one thing at a time is watched with an eye on one pair: after each turn the
clock and the entry of the pair, the questions for the pair, and the replies to a call that
needs its rate (`Office.views`). Beside it stands one at which the turns that concern other
pairs do not take place, and only the time goes by that they took (`Office.alone`). If the
source answers for a pair by the questions for that pair alone, then both look the same.

The two desks go side by side (`Alike`): they have the same settings, clock and entry of the
pair, and the source of the second one was asked what the first one asked for the pair. A
turn for another pair touches none of this, and a turn for the pair depends on nothing else.

Key definitions: `RateSource.KeepsApart`, `Turn.pair?`, `Office.alone`, `Office.views`, `Alike`.
Key theorems: `Prepared.keepsApart_source`, `Alike.call`, `Alike.take`, `Alike.views_eq`,
`views_alone`.
-/

namespace CurrencyDesk

/-! ### Sources that answer for each pair by itself -/

/-- What a source answers for a pair depends on the questions for that pair alone. -/
def RateSource.KeepsApart {σ : Type} (source : RateSource σ) (state : σ) : Prop :=
  ∀ (asked : List CurrencyPair) (pair : CurrencyPair),
    (source.ask (source.after state asked) pair).1 =
      (source.ask (source.after state (asked.filter (· = pair))) pair).1

theorem RateSource.after_append {σ : Type} (source : RateSource σ) (state : σ)
    (asked more : List CurrencyPair) :
    source.after state (asked ++ more) = source.after (source.after state asked) more :=
  List.foldl_append

namespace Prepared

theorem next_congr {p q : Prepared} {pair : CurrencyPair} (h : p.lookup pair = q.lookup pair) :
    (p.next pair).1 = (q.next pair).1 ∧
      (p.next pair).2.lookup pair = (q.next pair).2.lookup pair := by
  unfold next
  rw [← h]
  split
  · exact ⟨rfl, by simp [layOut]⟩
  · exact ⟨rfl, h⟩
  · exact ⟨rfl, h⟩

theorem lookup_after_filter (pair : CurrencyPair) (asked : List CurrencyPair) {p q : Prepared}
    (h : p.lookup pair = q.lookup pair) :
    List.lookup pair (source.after p asked) =
      List.lookup pair (source.after q (asked.filter (· = pair))) := by
  induction asked generalizing p q with
  | nil => exact h
  | cons other asked ih =>
    by_cases ho : other = pair
    · subst ho
      rw [List.filter_cons_of_pos (by simp)]
      exact ih (next_congr h).2
    · rw [List.filter_cons_of_neg (by simpa using ho)]
      exact ih ((p.lookup_next_of_ne (Ne.symm ho)).trans h)

theorem keepsApart_source (p : Prepared) : source.KeepsApart p := fun asked pair =>
  (next_congr (lookup_after_filter pair asked rfl)).1

end Prepared

/-! ### What is seen of a pair -/

/-- The pair that a turn concerns, if it concerns one. -/
def Turn.pair? (settings : Settings) : Turn → Option CurrencyPair
  | .call c => c.pair? settings
  | .store pair _ => some pair
  | .pass _ => none
  | .adopt _ => none

/-- What is seen of a turn with an eye on one pair: the clock and the entry of the pair
afterwards, the questions for the pair, and the replies if the turn concerns the pair. -/
structure View where
  now : Nat
  entry : Option CacheEntry
  asked : List CurrencyPair
  replies : List Reply

namespace Office

variable {σ : Type}

/-- What is seen of a turn that an office takes. -/
def view (source : RateSource σ) (pair : CurrencyPair) (o : Office σ) (turn : Turn) : View :=
  let (seen, after) := o.take source turn
  { now := after.desk.now
    entry := after.desk.cache.stored? pair
    asked := seen.asked.filter (· = pair)
    replies := if turn.pair? o.desk.settings = some pair then seen.replies else [] }

/-- What is seen of turns, one after the other. -/
def views (source : RateSource σ) (pair : CurrencyPair) (o : Office σ) : List Turn → List View
  | [] => []
  | turn :: turns => o.view source pair turn :: (o.take source turn).2.views source pair turns

/-- A turn, or the time that it takes if it concerns another pair. -/
def spare (source : RateSource σ) (pair : CurrencyPair) (o : Office σ) (turn : Turn) : Turn :=
  if (turn.pair? o.desk.settings).any (· ≠ pair) then
    .pass ((o.take source turn).2.desk.now - o.desk.now)
  else turn

/-- Turns without those that concern other pairs; the time that these take goes by in their
place. -/
def alone (source : RateSource σ) (pair : CurrencyPair) (o : Office σ) : List Turn → List Turn
  | [] => []
  | turn :: turns =>
    o.spare source pair turn :: (o.take source turn).2.alone source pair turns

end Office

/-! ### Side by side -/

/-- Two offices cannot be told apart by one pair, and the source of the second was asked
what the first has asked for this pair. -/
structure Alike {σ : Type} (source : RateSource σ) (start : σ) (pair : CurrencyPair)
    (o o' : Office σ) : Prop where
  idle : o.Idle
  idle' : o'.Idle
  settings : o'.desk.settings = o.desk.settings
  validity : o'.desk.cache.validity = o.desk.cache.validity
  now : o'.desk.now = o.desk.now
  stored : o'.desk.cache.stored? pair = o.desk.cache.stored? pair
  states : ∃ asked, o.state = source.after start asked ∧
    o'.state = source.after start (asked.filter (· = pair))

section Alike

variable {σ : Type} {source : RateSource σ} {start : σ} {pair : CurrencyPair} {o o' : Office σ}

theorem Alike.lookUp_eq (h : Alike source start pair o o') (hsource : source.KeepsApart start) :
    o'.desk.lookUp source o'.state pair = o.desk.lookUp source o.state pair := by
  have hfresh : o'.desk.cache.fresh? o.desk.now pair = o.desk.cache.fresh? o.desk.now pair :=
    RateCache.fresh?_congr h.validity h.stored _
  have hanswer : (source.ask o'.state pair).1 = (source.ask o.state pair).1 := by
    obtain ⟨asked, hs, hs'⟩ := h.states
    rw [hs, hs']
    exact (hsource asked pair).symm
  rw [Desk.lookUp, Desk.lookUp, h.now, h.stored, hfresh, hanswer]

theorem Alike.afterLookUp (h : Alike source start pair o o') (hsource : source.KeepsApart start) :
    Alike source start pair (o.desk.afterLookUp source o.state pair)
      (o'.desk.afterLookUp source o'.state pair) := by
  have hlook := h.lookUp_eq hsource
  obtain ⟨asked, hs, hs'⟩ := h.states
  have hown : (o.desk.lookUp source o.state pair).asked.filter (· = pair) =
      (o.desk.lookUp source o.state pair).asked :=
    List.filter_eq_self.mpr fun other hother => decide_eq_true (mem_lookUp_asked hother)
  refine
    { idle := (waiting_afterLookUp ..).trans h.idle
      idle' := (waiting_afterLookUp ..).trans h.idle'
      settings := ?_
      validity := ?_
      now := ?_
      stored := ?_
      states := ⟨asked ++ (o.desk.lookUp source o.state pair).asked, ?_, ?_⟩ }
  · rw [settings_afterLookUp, settings_afterLookUp, h.settings]
  · rw [validity_afterLookUp, validity_afterLookUp, h.validity]
  · rw [now_afterLookUp, now_afterLookUp, hlook]
  · rw [stored?_afterLookUp, stored?_afterLookUp, hlook]
  · rw [state_afterLookUp, RateSource.after_append, hs]
  · rw [state_afterLookUp, List.filter_append, RateSource.after_append, hown, hlook, ← hs']

/-- A lookup of another pair leaves both offices alike, when the time that it takes goes by at
the second one. -/
theorem Alike.pass_of_ne (h : Alike source start pair o o') {other : CurrencyPair}
    (hne : other ≠ pair) :
    Alike source start pair (o.desk.afterLookUp source o.state other)
      { o' with desk := { o'.desk with
        now := o'.desk.now + ((o.desk.lookUp source o.state other).finished - o.desk.now) } } := by
  obtain ⟨asked, hs, hs'⟩ := h.states
  have hnone : (o.desk.lookUp source o.state other).asked.filter (· = pair) = [] := by
    rw [List.filter_eq_nil_iff]
    intro p hp
    rw [mem_lookUp_asked hp, decide_eq_true_eq]
    exact hne
  refine
    { idle := (waiting_afterLookUp ..).trans h.idle
      idle' := h.idle'
      settings := ?_
      validity := ?_
      now := ?_
      stored := ?_
      states := ⟨asked ++ (o.desk.lookUp source o.state other).asked, ?_, ?_⟩ }
  · rw [settings_afterLookUp]
    exact h.settings
  · rw [validity_afterLookUp]
    exact h.validity
  · rw [now_afterLookUp, h.now]
    exact Nat.add_sub_cancel' (le_finished ..)
  · rw [stored?_afterLookUp_of_ne _ _ _ _ hne.symm]
    exact h.stored
  · rw [state_afterLookUp, RateSource.after_append, hs]
  · rw [List.filter_append, hnone, List.append_nil]
    exact hs'

/-- What is seen of a turn is the same when the two offices are alike after it, the questions
for the pair are the same and so are the replies that count. -/
theorem view_eq {turn turn' : Turn} (hnext : Alike source start pair (o.take source turn).2
      (o'.take source turn').2)
    (hasked : (o'.take source turn').1.asked.filter (· = pair) =
      (o.take source turn).1.asked.filter (· = pair))
    (hreplies : (if turn'.pair? o'.desk.settings = some pair then (o'.take source turn').1.replies
        else []) =
      if turn.pair? o.desk.settings = some pair then (o.take source turn).1.replies else []) :
    o'.view source pair turn' = o.view source pair turn := by
  simp only [Office.view, hnext.now, hnext.stored, hasked, hreplies]

/-- Turns side by side: what is seen of both, and what the source of the second is asked. -/
structure SameTurn {σ : Type} (source : RateSource σ) (start : σ) (pair : CurrencyPair)
    (o o' : Office σ) (turn turn' : Turn) : Prop where
  alike : Alike source start pair (o.take source turn).2 (o'.take source turn').2
  view : o'.view source pair turn' = o.view source pair turn
  asked : ∀ other ∈ (o'.take source turn').1.asked, other = pair

theorem Alike.call_of_own (h : Alike source start pair o o') (hsource : source.KeepsApart start)
    {call : Call} (hown : ∀ other ∈ call.pair? o.desk.settings, other = pair) :
    SameTurn source start pair o o' (.call call) (.call call) := by
  have hsettings := h.settings
  rcases he : call.errand? o.desk.settings with _ | errand
  · have he' : call.errand? o'.desk.settings = none := by rw [hsettings, he]
    have htake := Office.take_call_of_no_errand source h.idle he
    have htake' := Office.take_call_of_no_errand source h.idle' he'
    have hnext : Alike source start pair (o.take source (.call call)).2
        (o'.take source (.call call)).2 := by
      rw [htake, htake']
      exact { h with idle := h.idle, idle' := h.idle' }
    refine ⟨hnext, view_eq hnext ?_ ?_, ?_⟩
    · rw [htake, htake']
    · rw [htake, htake', Turn.pair?, Turn.pair?, hsettings]
    · simp [htake']
  · have he' : call.errand? o'.desk.settings = some errand := by rw [hsettings, he]
    obtain rfl : errand.pair = pair := hown _ (by simp [Call.pair?, he])
    have htake := Office.take_call_of_errand source h.idle he
    have htake' := Office.take_call_of_errand source h.idle' he'
    have hlook := h.lookUp_eq hsource
    have hnext : Alike source start errand.pair (o.take source (.call call)).2
        (o'.take source (.call call)).2 := by
      rw [htake, htake']
      exact h.afterLookUp hsource
    refine ⟨hnext, view_eq hnext ?_ ?_, ?_⟩
    · rw [htake, htake', hlook]
    · rw [htake, htake', hlook, Turn.pair?, Turn.pair?, hsettings]
    · rw [htake']
      exact fun other => mem_lookUp_asked

theorem Alike.call_of_ne (h : Alike source start pair o o') {call : Call} {errand : Errand}
    (he : call.errand? o.desk.settings = some errand) (hne : errand.pair ≠ pair) :
    SameTurn source start pair o o' (.call call)
      (.pass ((o.take source (.call call)).2.desk.now - o.desk.now)) := by
  have htake := Office.take_call_of_errand source h.idle he
  have hpair : (Turn.call call).pair? o.desk.settings ≠ some pair := by
    simpa [Turn.pair?, Call.pair?, he] using hne
  have hnext : Alike source start pair (o.take source (.call call)).2
      (o'.take source (.pass ((o.take source (.call call)).2.desk.now - o.desk.now))).2 := by
    rw [htake, now_afterLookUp]
    exact h.pass_of_ne hne
  refine ⟨hnext, view_eq hnext ?_ ?_, ?_⟩
  · rw [htake, Office.take, List.filter_nil, eq_comm, List.filter_eq_nil_iff]
    intro p hp
    rw [mem_lookUp_asked hp, decide_eq_true_eq]
    exact hne
  · rw [if_neg hpair]
    exact if_neg (by simp [Turn.pair?])
  · simp [Office.take]

theorem sameTurn_of_no_call {turn turn' : Turn} {d d' : Desk}
    (htake : o.take source turn = ({}, { o with desk := d }))
    (htake' : o'.take source turn' = ({}, { o' with desk := d' }))
    (hdesk : Alike source start pair { o with desk := d } { o' with desk := d' }) :
    SameTurn source start pair o o' turn turn' := by
  have hnext : Alike source start pair (o.take source turn).2 (o'.take source turn').2 := by
    rw [htake, htake']
    exact hdesk
  refine ⟨hnext, view_eq hnext ?_ ?_, ?_⟩
  · rw [htake, htake']
  · rw [htake, htake', ite_self, ite_self]
  · simp [htake']

/-- **Every turn is taken alike**, where those that concern other pairs are spared. -/
theorem Alike.take (h : Alike source start pair o o') (hsource : source.KeepsApart start)
    (turn : Turn) : SameTurn source start pair o o' turn (o.spare source pair turn) := by
  cases turn with
  | call call =>
    by_cases hother : ∀ other ∈ call.pair? o.desk.settings, other = pair
    · have hspare : o.spare source pair (.call call) = .call call := by
        refine if_neg ?_
        simpa [Turn.pair?, Option.any_eq_true] using hother
      rw [hspare]
      exact h.call_of_own hsource hother
    · obtain ⟨other, hmem, hne⟩ := by simpa using hother
      obtain ⟨errand, he, rfl⟩ := Option.map_eq_some_iff.mp hmem
      have hspare : o.spare source pair (.call call) =
          .pass ((o.take source (.call call)).2.desk.now - o.desk.now) := by
        refine if_pos ?_
        simpa [Turn.pair?, Call.pair?, he] using hne
      rw [hspare]
      exact h.call_of_ne he hne
  | store other rate =>
    by_cases ho : other = pair
    · subst ho
      have hspare : o.spare source other (.store other rate) = .store other rate :=
        if_neg (by simp [Turn.pair?])
      rw [hspare]
      refine sameTurn_of_no_call rfl rfl { h with idle := h.idle, idle' := h.idle', stored := ?_ }
      simp only [Desk.step]
      rw [RateCache.stored?_store_self, RateCache.stored?_store_self, h.now]
    · have hspare : o.spare source pair (.store other rate) = .pass 0 := by
        have htime : (o.take source (.store other rate)).2.desk.now - o.desk.now = 0 :=
          Nat.sub_self _
        rw [Office.spare, if_pos (by simpa [Turn.pair?] using ho), htime]
      rw [hspare]
      refine sameTurn_of_no_call rfl rfl { h with idle := h.idle, idle' := h.idle', stored := ?_ }
      exact h.stored.trans (RateCache.stored?_store_of_ne _ _ (Ne.symm ho) rate).symm
  | pass milliseconds =>
    refine sameTurn_of_no_call rfl rfl { h with idle := h.idle, idle' := h.idle', now := ?_ }
    exact congrArg (· + milliseconds) h.now
  | adopt settings =>
    exact sameTurn_of_no_call rfl rfl { h with idle := h.idle, idle' := h.idle', settings := rfl }

/-- Whole runs look the same, and the source of the second is asked for the pair alone. -/
theorem Alike.views_eq (h : Alike source start pair o o') (hsource : source.KeepsApart start)
    (turns : List Turn) :
    o'.views source pair (o.alone source pair turns) = o.views source pair turns ∧
      ∀ seen ∈ (o'.run source (o.alone source pair turns)).1, ∀ other ∈ seen.asked,
        other = pair := by
  induction turns generalizing o o' with
  | nil => exact ⟨rfl, by simp [Office.alone, Office.run]⟩
  | cons turn turns ih =>
    obtain ⟨hnext, hview, hasked⟩ := h.take hsource turn
    obtain ⟨hviews, hrest⟩ := ih hnext
    rw [Office.alone, Office.views, Office.views, hview, hviews, Office.run_cons]
    refine ⟨rfl, fun seen hseen => ?_⟩
    rcases List.mem_cons.mp hseen with rfl | hseen
    · exact hasked
    · exact hrest seen hseen

end Alike

/-- **Pairs do not influence each other.** Whatever a desk is given, one thing at a time, and
whichever pair is looked at: with a source that answers for each pair by itself, the clock
and the entry of the pair after every turn, the questions for the pair and the replies to the
calls that need it are the same as if the turns for other pairs did not take place and only
their time went by; and then the source is asked for no other pair. -/
theorem views_alone {σ : Type} {source : RateSource σ} {state : σ}
    (hsource : source.KeepsApart state) (settings : Settings) (validity : Nat)
    (turns : List Turn) (pair : CurrencyPair) :
    let start := Office.fresh settings validity state
    let spared := start.alone source pair turns
    start.views source pair spared = start.views source pair turns ∧
      ∀ seen ∈ (start.run source spared).1, ∀ other ∈ seen.asked, other = pair := by
  intro start spared
  have hstart : Alike source state pair start start :=
    { idle := rfl
      idle' := rfl
      settings := rfl
      validity := rfl
      now := rfl
      stored := rfl
      states := ⟨[], rfl, rfl⟩ }
  exact hstart.views_eq hsource turns

/-- The reversed pair, and a pair that is named by the same text, are other pairs. -/
theorem views_alone_of_same_label :
    let state : Prepared :=
      [(⟨"a-b", "c"⟩, [⟨300, .ok (.ofInt 2)⟩, ⟨0, .error .missing⟩]),
        (⟨"a", "b-c"⟩, [⟨40, .ok (.ofInt 3)⟩]), (⟨"c", "a-b"⟩, [⟨5, .ok (.ofInt 7)⟩])]
    let turns : List Turn :=
      [.call (.rate "A" "B-C"), .call (.query "1 a-b to c"), .store ⟨"c", "a-b"⟩ (.ofInt 5),
        .pass 9, .call (.rate "a" "b-c"), .call (.rate "A-B" "C")]
    let start := Office.fresh (.byDefault "USD") 10 state
    (⟨"a-b", "c"⟩ : CurrencyPair).label = (⟨"a", "b-c"⟩ : CurrencyPair).label ∧
      Prepared.source.KeepsApart state ∧
      (start.views Prepared.source ⟨"a-b", "c"⟩ turns).map
          (fun view => (view.now, view.asked, view.replies.length)) =
        [(40, [], 0), (340, [⟨"a-b", "c"⟩], 1), (340, [], 0), (349, [], 0), (389, [], 0),
          (389, [⟨"a-b", "c"⟩], 1)] ∧
      start.views Prepared.source ⟨"a-b", "c"⟩ (start.alone Prepared.source ⟨"a-b", "c"⟩ turns) =
        start.views Prepared.source ⟨"a-b", "c"⟩ turns := by
  intro state turns start
  have hsource := Prepared.keepsApart_source state
  exact ⟨by decide, hsource, by decide +kernel,
    (views_alone hsource (.byDefault "USD") 10 turns ⟨"a-b", "c"⟩).1⟩

end CurrencyDesk
