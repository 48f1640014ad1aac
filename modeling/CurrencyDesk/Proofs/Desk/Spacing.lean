import CurrencyDesk.Proofs.Desk.Sequence
import CurrencyDesk.Proofs.Desk.Together
/-!
# Questions for a pair are a validity apart

A desk that does one thing at a time asks its source for a pair only when the pair has no
entry that may be served. While the source does not fail, each question leaves an entry of the
instant at which its answer arrives; so the next one does not come before the validity has
gone by. From this the number of questions follows: they fit between the starts of the first
and the last lookup.

What a turn is to one pair is said once (`take_cases`): nothing at all, a lookup that is served
from the cache, or a lookup that asks the source and leaves what it answers. The instants of
the lookups, the spacing of the questions and their number are then inductions over the turns.

Key definitions: `Lookup`, `Office.lookups`, `Office.answers`.
Key theorems: `take_cases`, `pairwise_lookups`, `Lookup.length_mul_le`, `spaced_questions`,
`questions_are_spaced`.
-/

namespace CurrencyDesk

/-- The pair that a turn looks up, if it looks up one. -/
def Turn.lookup? (settings : Settings) : Turn → Option CurrencyPair
  | .call c => c.pair? settings
  | _ => none

/-- A lookup of a pair: the instants at which it starts and ends, and the pairs that the source
is asked for meanwhile. The source is asked as the lookup starts, and its answer arrives as the
lookup ends. -/
structure Lookup where
  started : Nat
  asked : List CurrencyPair
  finished : Nat
deriving DecidableEq

namespace Office

variable {σ : Type}

/-- The lookups of a pair, one after the other. -/
def lookups (source : RateSource σ) (pair : CurrencyPair) (o : Office σ) : List Turn → List Lookup
  | [] => []
  | turn :: turns =>
    let (seen, after) := o.take source turn
    let later := after.lookups source pair turns
    if turn.lookup? o.desk.settings = some pair then
      ⟨o.desk.now, seen.asked, after.desk.now⟩ :: later
    else later

/-- Those lookups of a pair for which the source is asked. -/
def questions (source : RateSource σ) (pair : CurrencyPair) (o : Office σ) (turns : List Turn) :
    List Lookup :=
  (o.lookups source pair turns).filter (·.asked ≠ [])

/-- The answers that the source gives for a pair. -/
def answers (source : RateSource σ) (pair : CurrencyPair) (o : Office σ) : List Turn → List Answer
  | [] => []
  | turn :: turns =>
    let (seen, after) := o.take source turn
    let later := after.answers source pair turns
    if pair ∈ seen.asked then (source.ask o.state pair).1 :: later else later

end Office

theorem RateCache.le_of_fresh?_eq_none {c : RateCache} {now : Nat} {pair : CurrencyPair}
    {entry : CacheEntry} (hpos : 0 < c.validity) (he : c.stored? pair = some entry)
    (h : c.fresh? now pair = none) : entry.storedAt + c.validity ≤ now := by
  rw [fresh?, he, Option.map_eq_none_iff, Option.filter_some] at h
  have hold : c.isFresh now entry = false := by
    by_contra hfresh
    simp [hfresh] at h
  rw [isFresh, decide_eq_false_iff_not, CacheEntry.age] at hold
  omega

/-! ### One turn -/

section Turns

variable {σ : Type} {source : RateSource σ} {pair : CurrencyPair} {o : Office σ}

/-- What a turn is to a pair whose entry is not put in place by hand. -/
theorem take_cases (h : o.Idle) (turn : Turn) (hstore : ∀ rate, turn ≠ .store pair rate) :
    let seen := (o.take source turn).1
    let after := (o.take source turn).2
    o.desk.now ≤ after.desk.now ∧
    ((turn.lookup? o.desk.settings ≠ some pair ∧ pair ∉ seen.asked ∧
        after.desk.cache.stored? pair = o.desk.cache.stored? pair) ∨
      (turn.lookup? o.desk.settings = some pair ∧
        (∃ rate, o.desk.cache.fresh? o.desk.now pair = some rate) ∧ seen.asked = [] ∧
        after.desk.cache.stored? pair = o.desk.cache.stored? pair) ∨
      (turn.lookup? o.desk.settings = some pair ∧
        o.desk.cache.fresh? o.desk.now pair = none ∧ seen.asked = [pair] ∧
        after.desk.now = o.desk.now + (source.ask o.state pair).1.delay ∧
        after.desk.cache.stored? pair = entryAfter (o.desk.cache.stored? pair) after.desk.now
          (source.ask o.state pair).1.result)) := by
  intro seen after
  cases turn with
  | call call =>
    rcases he : call.errand? o.desk.settings with _ | errand
    · have htake := Office.take_call_of_no_errand source h he
      have hother : (Turn.call call).lookup? o.desk.settings ≠ some pair := by
        simp [Turn.lookup?, Call.pair?, he]
      refine ⟨?_, .inl ⟨hother, ?_, ?_⟩⟩ <;> simp [seen, after, htake]
    · have htake := Office.take_call_of_errand source h he
      have hlookup : (Turn.call call).lookup? o.desk.settings = some errand.pair := by
        simp [Turn.lookup?, Call.pair?, he]
      simp only [seen, after, htake, hlookup, now_afterLookUp]
      refine ⟨le_finished .., ?_⟩
      by_cases hp : errand.pair = pair
      · subst hp
        rw [stored?_afterLookUp]
        rcases hf : o.desk.cache.fresh? o.desk.now errand.pair with _ | rate
        · rw [lookUp_of_not_fresh hf]
          exact .inr (.inr ⟨rfl, rfl, rfl, rfl, rfl⟩)
        · rw [lookUp_of_fresh hf]
          exact .inr (.inl ⟨rfl, ⟨rate, rfl⟩, rfl, rfl⟩)
      · rw [stored?_afterLookUp_of_ne _ _ _ _ (Ne.symm hp)]
        exact .inl ⟨fun heq => hp (Option.some.inj heq),
          fun hmem => hp (mem_lookUp_asked hmem).symm, rfl⟩
  | store other rate =>
    have hne : pair ≠ other := fun heq => hstore rate (by rw [heq])
    exact ⟨le_rfl, .inl ⟨by simp [Turn.lookup?], List.not_mem_nil,
      RateCache.stored?_store_of_ne _ _ hne rate⟩⟩
  | pass milliseconds =>
    exact ⟨Nat.le_add_right _ _, .inl ⟨by simp [Turn.lookup?], List.not_mem_nil, rfl⟩⟩
  | adopt settings => exact ⟨le_rfl, .inl ⟨by simp [Turn.lookup?], List.not_mem_nil, rfl⟩⟩

/-! ### Runs -/

namespace Office

theorem lookups_cons_of_ne {turn : Turn} (h : turn.lookup? o.desk.settings ≠ some pair)
    (turns : List Turn) :
    o.lookups source pair (turn :: turns) = (o.take source turn).2.lookups source pair turns :=
  if_neg h

theorem lookups_cons {turn : Turn} (h : turn.lookup? o.desk.settings = some pair)
    (turns : List Turn) :
    o.lookups source pair (turn :: turns) =
      ⟨o.desk.now, (o.take source turn).1.asked, (o.take source turn).2.desk.now⟩ ::
        (o.take source turn).2.lookups source pair turns :=
  if_pos h

theorem questions_cons_of_ne {turn : Turn} (h : turn.lookup? o.desk.settings ≠ some pair)
    (turns : List Turn) :
    o.questions source pair (turn :: turns) = (o.take source turn).2.questions source pair turns :=
  congrArg _ (lookups_cons_of_ne h turns)

/-- A lookup that is served from the cache is no question. -/
theorem questions_cons_of_not_asked {turn : Turn} (h : (o.take source turn).1.asked = [])
    (turns : List Turn) :
    o.questions source pair (turn :: turns) =
      (o.take source turn).2.questions source pair turns := by
  by_cases hp : turn.lookup? o.desk.settings = some pair
  · rw [questions, lookups_cons hp, List.filter_cons_of_neg (by simp [h])]
    rfl
  · exact questions_cons_of_ne hp turns

theorem questions_cons {turn : Turn} (hp : turn.lookup? o.desk.settings = some pair)
    (h : (o.take source turn).1.asked ≠ []) (turns : List Turn) :
    o.questions source pair (turn :: turns) =
      ⟨o.desk.now, (o.take source turn).1.asked, (o.take source turn).2.desk.now⟩ ::
        (o.take source turn).2.questions source pair turns := by
  rw [questions, lookups_cons hp, List.filter_cons_of_pos (by simpa using h)]
  rfl

theorem forall_store_notMem_cons {turn : Turn} {turns : List Turn} :
    (∀ rate, Turn.store pair rate ∉ turn :: turns) ↔
      (∀ rate, turn ≠ .store pair rate) ∧ ∀ rate, Turn.store pair rate ∉ turns := by
  constructor
  · intro h
    exact ⟨fun rate heq => h rate (heq ▸ List.mem_cons_self),
      fun rate hmem => h rate (List.mem_cons_of_mem turn hmem)⟩
  · rintro ⟨hturn, hrest⟩ rate hmem
    rcases List.mem_cons.mp hmem with heq | hmem
    · exact hturn rate heq.symm
    · exact hrest rate hmem

theorem pairwise_lookups (h : o.Idle) {turns : List Turn}
    (hstore : ∀ rate, Turn.store pair rate ∉ turns) :
    (o.lookups source pair turns).Pairwise (fun l later => l.finished ≤ later.started) ∧
      ∀ l ∈ o.lookups source pair turns, o.desk.now ≤ l.started ∧ l.started ≤ l.finished := by
  induction turns generalizing o with
  | nil => exact ⟨.nil, fun l hl => (List.not_mem_nil hl).elim⟩
  | cons turn turns ih =>
    obtain ⟨hturn, hrest⟩ := forall_store_notMem_cons.mp hstore
    obtain ⟨hnow, -⟩ := take_cases h turn hturn
    obtain ⟨hpairwise, hlater⟩ := ih (h.take source turn) hrest
    by_cases hp : turn.lookup? o.desk.settings = some pair
    · rw [lookups_cons hp]
      refine ⟨List.pairwise_cons.mpr ⟨fun l hl => (hlater l hl).1, hpairwise⟩, fun l hl => ?_⟩
      rcases List.mem_cons.mp hl with rfl | hl
      · exact ⟨le_rfl, hnow⟩
      · exact ⟨Nat.le_trans hnow (hlater l hl).1, (hlater l hl).2⟩
    · rw [lookups_cons_of_ne hp]
      exact ⟨hpairwise, fun l hl => ⟨Nat.le_trans hnow (hlater l hl).1, (hlater l hl).2⟩⟩

theorem asked_of_head_lookups (h : o.Idle) {turns : List Turn}
    (hstore : ∀ rate, Turn.store pair rate ∉ turns)
    (hnone : o.desk.cache.stored? pair = none) :
    ∀ l ∈ (o.lookups source pair turns).head?, l.asked ≠ [] := by
  induction turns generalizing o with
  | nil => intro l hl; cases hl
  | cons turn turns ih =>
    obtain ⟨hturn, hrest⟩ := forall_store_notMem_cons.mp hstore
    obtain ⟨-, ⟨hp, -, hentry⟩ | ⟨-, ⟨rate, hfresh⟩, -⟩ | ⟨hp, -, hasked, -⟩⟩ :=
      take_cases h turn hturn
    · rw [lookups_cons_of_ne hp]
      exact ih (h.take source turn) hrest (hentry.trans hnone)
    · rw [RateCache.fresh?, hnone] at hfresh
      cases hfresh
    · rw [lookups_cons hp]
      intro l hl
      obtain rfl := Option.some.inj hl
      rw [hasked]
      exact List.cons_ne_nil _ _

/-- The source is asked for a pair once in each question. -/
theorem count_asked (h : o.Idle) {turns : List Turn}
    (hstore : ∀ rate, Turn.store pair rate ∉ turns) :
    ((o.run source turns).1.flatMap (·.asked)).count pair =
      (o.questions source pair turns).length := by
  induction turns generalizing o with
  | nil => rfl
  | cons turn turns ih =>
    obtain ⟨hturn, hrest⟩ := forall_store_notMem_cons.mp hstore
    rw [run_cons, List.flatMap_cons, List.count_append, ih (h.take source turn) hrest]
    obtain ⟨-, ⟨hp, hasked, -⟩ | ⟨-, -, hasked, -⟩ | ⟨hp, -, hasked, -⟩⟩ := take_cases h turn hturn
    · rw [List.count_eq_zero_of_not_mem hasked, questions_cons_of_ne hp, Nat.zero_add]
    · rw [hasked, questions_cons_of_not_asked hasked, List.count_nil, Nat.zero_add]
    · rw [questions_cons hp (by simp [hasked]), hasked, List.count_singleton_self,
        List.length_cons, Nat.add_comm]

theorem answers_cons_of_not_mem {turn : Turn} (h : pair ∉ (o.take source turn).1.asked)
    (turns : List Turn) :
    o.answers source pair (turn :: turns) = (o.take source turn).2.answers source pair turns :=
  if_neg h

theorem answers_cons {turn : Turn} (h : pair ∈ (o.take source turn).1.asked)
    (turns : List Turn) :
    o.answers source pair (turn :: turns) =
      (source.ask o.state pair).1 :: (o.take source turn).2.answers source pair turns :=
  if_pos h

/-- Each question lasts as long as its answer takes. -/
theorem forall₂_questions_answers (h : o.Idle) {turns : List Turn}
    (hstore : ∀ rate, Turn.store pair rate ∉ turns) :
    List.Forall₂ (fun q answer => q.finished = q.started + answer.delay)
      (o.questions source pair turns) (o.answers source pair turns) := by
  induction turns generalizing o with
  | nil => exact .nil
  | cons turn turns ih =>
    obtain ⟨hturn, hrest⟩ := forall_store_notMem_cons.mp hstore
    have hlater := ih (h.take source turn) hrest
    obtain ⟨-, ⟨hp, hasked, -⟩ | ⟨-, -, hasked, -⟩ | ⟨hp, -, hasked, hnow, -⟩⟩ :=
      take_cases h turn hturn
    · rwa [questions_cons_of_ne hp, answers_cons_of_not_mem hasked]
    · rwa [questions_cons_of_not_asked hasked, answers_cons_of_not_mem (by simp [hasked])]
    · rw [questions_cons hp (by simp [hasked]), answers_cons (by simp [hasked])]
      exact .cons hnow hlater

/-- **While the source does not fail, the validity goes by between two questions**, and between
an entry and the first question after it. -/
theorem spaced_questions (h : o.Idle) {turns : List Turn} {validity : Nat} (hpos : 0 < validity)
    (hvalidity : o.desk.cache.validity = validity)
    (hstore : ∀ rate, Turn.store pair rate ∉ turns)
    (hok : ∀ answer ∈ o.answers source pair turns, answer.result.isOk) :
    (o.questions source pair turns).Pairwise
        (fun q next => q.finished + validity ≤ next.started) ∧
      ∀ entry, o.desk.cache.stored? pair = some entry →
        ∀ q ∈ o.questions source pair turns, entry.storedAt + validity ≤ q.started := by
  induction turns generalizing o with
  | nil => exact ⟨.nil, fun _ _ q hq => (List.not_mem_nil hq).elim⟩
  | cons turn turns ih =>
    have hidle := h.take source turn
    have hkept : (o.take source turn).2.desk.cache.validity = validity :=
      (validity_take h turn).trans hvalidity
    obtain ⟨hturn, hrest⟩ := forall_store_notMem_cons.mp hstore
    obtain ⟨hnow, ⟨hp, hasked, hentry⟩ | ⟨hp, -, hasked, hentry⟩ |
      ⟨hp, hfresh, hasked, -, hentry⟩⟩ := take_cases h turn hturn
    · rw [answers_cons_of_not_mem hasked] at hok
      rw [questions_cons_of_ne hp, ← hentry]
      exact ih hidle hkept hrest hok
    · rw [answers_cons_of_not_mem (by simp [hasked])] at hok
      rw [questions_cons_of_not_asked hasked, ← hentry]
      exact ih hidle hkept hrest hok
    · -- the answer is the entry before which no later question comes
      rw [answers_cons (by simp [hasked]), List.forall_mem_cons] at hok
      obtain ⟨hanswer, hok⟩ := hok
      obtain ⟨rate, hrate⟩ : ∃ rate, (source.ask o.state pair).1.result = .ok rate := by
        cases hresult : (source.ask o.state pair).1.result with
        | ok rate => exact ⟨rate, rfl⟩
        | error fault => simp [hresult, Except.isOk, Except.toBool] at hanswer
      obtain ⟨hpairwise, hafter⟩ := ih hidle hkept hrest hok
      rw [hrate] at hentry
      have hnext := hafter _ hentry
      rw [questions_cons hp (by simp [hasked])]
      refine ⟨List.pairwise_cons.mpr ⟨hnext, hpairwise⟩, fun entry he q hq => ?_⟩
      have hold : entry.storedAt + validity ≤ o.desk.now :=
        hvalidity ▸ RateCache.le_of_fresh?_eq_none (hvalidity ▸ hpos) he hfresh
      rcases List.mem_cons.mp hq with rfl | hq
      · exact hold
      · have := hnext q hq
        dsimp only at this
        omega

end Office

end Turns

/-! ### How many questions there are -/

/-- Lookups that are a while apart, between two instants, are not more than fit in. -/
theorem Lookup.length_mul_le {apart : Nat} : ∀ {qs : List Lookup} {first last : Nat},
    qs.Pairwise (fun q next => q.finished + apart ≤ next.started) →
    (∀ q ∈ qs, first ≤ q.started ∧ q.started ≤ q.finished ∧ q.started ≤ last) →
    qs ≠ [] → first + (qs.length - 1) * apart ≤ last
  | [], _, _, _, _, hne => absurd rfl hne
  | [q], first, last, _, h, _ => by
    have := h q List.mem_cons_self
    simp only [List.length_singleton, Nat.sub_self, Nat.zero_mul]
    omega
  | q :: next :: qs, first, last, hpairwise, h, _ => by
    obtain ⟨hnext, hrest⟩ := List.pairwise_cons.mp hpairwise
    have hq := h q List.mem_cons_self
    have hmore := length_mul_le hrest
      (fun l hl => ⟨hnext l hl, (h l (List.mem_cons_of_mem q hl)).2⟩) (List.cons_ne_nil _ _)
    simp only [List.length_cons, Nat.add_sub_cancel] at hmore ⊢
    rw [Nat.add_mul, Nat.one_mul]
    omega

theorem Lookup.started_between {ls : List Lookup} {first last : Lookup}
    (horder : ls.Pairwise fun l later => l.finished ≤ later.started)
    (hle : ∀ l ∈ ls, l.started ≤ l.finished) (hfirst : first ∈ ls.head?)
    (hlast : last ∈ ls.getLast?) :
    ∀ l ∈ ls, first.started ≤ l.started ∧ l.started ≤ last.started := by
  intro l hl
  constructor
  · obtain ⟨rest, rfl⟩ := List.head?_eq_some_iff.mp hfirst
    rcases List.mem_cons.mp hl with rfl | hrest
    · exact le_rfl
    · exact Nat.le_trans (hle first List.mem_cons_self) ((List.pairwise_cons.mp horder).1 l hrest)
  · obtain ⟨before, rfl⟩ := List.getLast?_eq_some_iff.mp hlast
    rcases List.mem_append.mp hl with hbefore | hl'
    · exact Nat.le_trans (hle l hl)
        ((List.pairwise_append.mp horder).2.2 l hbefore last List.mem_cons_self)
    · rw [List.mem_singleton.mp hl']

/-- **The cache bounds the number of questions.** Whatever a desk with an empty cache is given,
one thing at a time, while no rate of the pair is put into the cache by hand and the source
does not fail for the pair: if the pair is looked up at all, then the source is asked for it at
least once, and at most once more than the validity goes into the time from the start of the
first lookup to the start of the last one. From the arrival of one answer to the next question
at least the validity goes by. -/
theorem questions_are_spaced {σ : Type} (source : RateSource σ) (state : σ) (settings : Settings)
    {validity : Nat} (hpos : 0 < validity) {turns : List Turn} {pair : CurrencyPair}
    (hstore : ∀ rate, Turn.store pair rate ∉ turns)
    (hok : ∀ answer ∈ (Office.fresh settings validity state).answers source pair turns,
      answer.result.isOk) :
    let start := Office.fresh settings validity state
    let lookups := start.lookups source pair turns
    let questions := start.questions source pair turns
    let count := ((start.run source turns).1.flatMap (·.asked)).count pair
    (∀ first ∈ lookups.head?, ∀ last ∈ lookups.getLast?, first.started ≤ last.started ∧
      1 ≤ count ∧ count ≤ (last.started - first.started) / validity + 1) ∧
    count = questions.length ∧
    List.Forall₂ (fun q answer => q.finished = q.started + answer.delay) questions
      (start.answers source pair turns) ∧
    questions.Pairwise fun q next => q.finished + validity ≤ next.started := by
  intro start lookups questions count
  have hidle : start.Idle := Office.idle_fresh settings validity state
  have hcount : count = questions.length := Office.count_asked hidle hstore
  obtain ⟨hspaced, -⟩ := Office.spaced_questions hidle hpos rfl hstore hok
  obtain ⟨horder, hlookup⟩ := Office.pairwise_lookups hidle hstore
  refine ⟨fun first hfirst last hlast => ?_, hcount,
    Office.forall₂_questions_answers hidle hstore, hspaced⟩
  have hbetween := Lookup.started_between horder (fun l hl => (hlookup l hl).2) hfirst hlast
  have hmem : first ∈ questions := by
    have hasked :=
      Office.asked_of_head_lookups hidle hstore (RateCache.stored?_empty ..) first hfirst
    exact List.mem_filter.mpr ⟨List.mem_of_mem_head? hfirst, by simpa using hasked⟩
  have hne : questions ≠ [] := List.ne_nil_of_mem hmem
  have hfit : first.started + (questions.length - 1) * validity ≤ last.started := by
    refine Lookup.length_mul_le hspaced (fun q hq => ?_) hne
    have hl : q ∈ lookups := List.mem_of_mem_filter hq
    exact ⟨(hbetween q hl).1, (hlookup q hl).2, (hbetween q hl).2⟩
  have hlength : 0 < questions.length := List.length_pos_iff.mpr hne
  have hquotient : questions.length - 1 ≤ (last.started - first.started) / validity := by
    rw [Nat.le_div_iff_mul_le hpos]
    omega
  rw [hcount]
  exact ⟨(hbetween last (List.mem_of_mem_getLast? hlast)).1, hlength, by omega⟩

/-- With a validity of 10 and answers that take 3, the lookups that start at 0 and at 13 ask: the
entry of the first is then of age 10. The one at 12 finds it of age 9 and does not ask. -/
theorem questions_are_spaced_of_delays :
    let state : Prepared := [(⟨"usd", "jpy"⟩, [⟨3, .ok (.ofInt 150)⟩])]
    let turns : List Turn :=
      [.call (.rate "usd" "jpy"), .pass 9, .call (.query "2 USD to JPY"), .pass 1,
        .call (.rate "eur" "jpy"), .call (.rate "USD" "jpy"), .pass 4]
    let start := Office.fresh (.byDefault "USD") 10 state
    let count := ((start.run Prepared.source turns).1.flatMap (·.asked)).count ⟨"usd", "jpy"⟩
    (start.lookups Prepared.source ⟨"usd", "jpy"⟩ turns).map (fun l => (l.started, l.finished)) =
        [(0, 3), (12, 12), (13, 16)] ∧
      count = 2 ∧ 1 ≤ count ∧ count ≤ (13 - 0) / 10 + 1 ∧
      (start.questions Prepared.source ⟨"usd", "jpy"⟩ turns).Pairwise
        fun q next => q.finished + 10 ≤ next.started := by
  intro state turns start count
  have hstore : ∀ rate, Turn.store ⟨"usd", "jpy"⟩ rate ∉ turns := by
    simp [turns]
  have hok : ∀ answer ∈ start.answers Prepared.source ⟨"usd", "jpy"⟩ turns,
      answer.result.isOk := by decide +kernel
  obtain ⟨hbound, -, -, hspaced⟩ :=
    questions_are_spaced Prepared.source state (.byDefault "USD") (by decide) hstore hok
  obtain ⟨-, hlow, hhigh⟩ := hbound ⟨0, [⟨"usd", "jpy"⟩], 3⟩ (by decide +kernel)
    ⟨13, [⟨"usd", "jpy"⟩], 16⟩ (by decide +kernel)
  exact ⟨by decide +kernel, by decide +kernel, hlow, hhigh, hspaced⟩

end CurrencyDesk
