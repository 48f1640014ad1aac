import CurrencyDesk.Desk.Serve
import CurrencyDesk.Proofs.Desk.Transcript
/-!
# The steps of a service

What a service does with a call and with an answer that arrives, each as one step of its
desk. A call that finds a fresh rate is replied to; any other one asks the source, whose
answer is then passed on at once or put among those that are on their way. These stand in
the order of their instants, so none is due before the first of them.

Key definitions: `questions`, `Service.asking`, `RateSource.Separate`.
Key theorems: `Due.sorted_insert`, `take_of_fresh`, `take_of_not_fresh`, `arrive_eq`,
`Prepared.separate_source`.
-/

namespace CurrencyDesk

/-! ### Answers on their way -/

namespace Due

theorem perm_insert (due : Due) : ∀ dues : List Due, (due.insert dues).Perm (due :: dues)
  | [] => .refl _
  | first :: rest => by
    rw [insert]
    split_ifs
    · exact ((perm_insert due rest).cons first).trans (.swap due first rest)
    · exact .refl _

theorem sorted_insert (due : Due) : ∀ {dues : List Due}, dues.Pairwise (·.time ≤ ·.time) →
    (due.insert dues).Pairwise (·.time ≤ ·.time)
  | [], _ => List.pairwise_singleton _ _
  | first :: rest, h => by
    obtain ⟨hfirst, hrest⟩ := List.pairwise_cons.mp h
    rw [insert]
    split_ifs with hle
    · refine List.pairwise_cons.mpr ⟨fun later hlater => ?_, sorted_insert due hrest⟩
      rcases List.mem_cons.mp ((perm_insert due rest).subset hlater) with rfl | hlater
      · exact hle
      · exact hfirst later hlater
    · refine List.pairwise_cons.mpr ⟨fun later hlater => ?_, h⟩
      have hdue : due.time ≤ first.time := Nat.le_of_not_le hle
      rcases List.mem_cons.mp hlater with rfl | hlater
      · exact hdue
      · exact Nat.le_trans hdue (hfirst later hlater)

end Due

/-! ### Sources that keep pairs apart -/

/-- A question for one pair does not change what is answered for another. -/
def RateSource.Separate {σ : Type} (source : RateSource σ) : Prop :=
  ∀ (state : σ) (pair other : CurrencyPair), pair ≠ other →
    (source.ask (source.ask state other).2 pair).1 = (source.ask state pair).1

theorem Prepared.lookup_next_of_ne (p : Prepared) {pair other : CurrencyPair} (h : pair ≠ other) :
    (p.next other).2.lookup pair = p.lookup pair := by
  unfold next
  split
  · rw [layOut, List.lookup_cons, beq_false_of_ne h]
  · rfl
  · rfl

theorem Prepared.separate_source : Prepared.source.Separate := by
  intro p pair other h
  have hlookup := p.lookup_next_of_ne h
  simp only [source]
  generalize (p.next other).2 = p' at hlookup
  unfold next
  rw [hlookup]
  split <;> rfl

/-! ### Steps -/

namespace Service

variable {σ : Type} (s : Service σ)

/-- The pairs that the source was asked for. -/
def questions (log : List Desk.Happening) : List CurrencyPair :=
  log.filterMap fun
    | .asked _ pair => some pair
    | .replied .. => none

@[simp] theorem questions_append (log more : List Desk.Happening) :
    questions (log ++ more) = questions log ++ questions more := by
  simp [questions]

@[simp] theorem questions_asked (number : Nat) (pair : CurrencyPair) :
    questions [.asked number pair] = [pair] := rfl

@[simp] theorem questions_replied (number : Nat) (reply : Reply) :
    questions [.replied number reply] = [] := rfl

theorem reply?_eq (number : Nat) : s.reply? number = (Desk.repliesTo s.log number).head? := by
  rw [reply?, Desk.repliesTo, List.head?_filterMap]
  congr 1
  funext happening
  cases happening <;> rfl

theorem happen_eq (e : Desk.Event) :
    s.happen e = { s with desk := (s.desk.step e).1, log := s.log ++ (s.desk.step e).2 } := rfl

/-- The service after it has asked the source on behalf of a new call. -/
def asking (source : RateSource σ) (errand : Errand) : Service σ :=
  { s with
    desk := { s.desk with
      opened := s.desk.opened + 1
      waiting := s.desk.waiting ++ [(s.desk.opened, errand)] }
    state := (source.ask s.state errand.pair).2
    log := s.log ++ [.asked s.desk.opened errand.pair] }

variable {s} {source : RateSource σ} {call : Call} {errand : Errand}

theorem take_of_fresh {rate : Binary64} (hnew : s.desk.waiting.lookup s.desk.opened = none)
    (he : call.errand? s.desk.settings = some errand)
    (hf : s.desk.cache.fresh? s.desk.now errand.pair = some rate) :
    s.take source call =
      { s with
        desk := { s.desk with opened := s.desk.opened + 1 }
        log := s.log ++ [.replied s.desk.opened (errand.reply (.ok rate))] } := by
  simp only [take, happen_eq, Desk.step_call_of_fresh s.desk he hf, hnew]

theorem take_of_not_fresh (hnew : s.desk.waiting.lookup s.desk.opened = none)
    (he : call.errand? s.desk.settings = some errand)
    (hf : s.desk.cache.fresh? s.desk.now errand.pair = none) :
    s.take source call =
      (s.asking source errand).pass s.desk.opened (source.ask s.state errand.pair).1 := by
  have hwaiting : (s.desk.waiting ++ [(s.desk.opened, errand)]).lookup s.desk.opened =
      some errand := by
    simp [List.lookup_append, hnew]
  simp only [take, happen_eq, Desk.step_call_of_not_fresh s.desk he hf, hwaiting]
  rfl

theorem take_congr {other : Call}
    (h : call.errand? s.desk.settings = other.errand? s.desk.settings) :
    s.take source call = s.take source other := by
  simp only [take, happen_eq, Desk.step_call_congr s.desk h]

/-- An answer that is not late arrives at its instant. -/
theorem arrive_eq {due : Due} (h : s.desk.now ≤ due.time) :
    s.arrive due =
      { s with desk := { s.desk with now := due.time } }.happen
        (.answer due.number due.result) := by
  have hnow : s.desk.now + (due.time - s.desk.now) = due.time := Nat.add_sub_cancel' h
  simp only [arrive, happen_eq, Desk.step, hnow, List.append_nil]

end Service

theorem Desk.serve_congr {σ : Type} {d : Desk} {call other : Call}
    (h : call.errand? d.settings = other.errand? d.settings) (source : RateSource σ) (state : σ) :
    d.serve source state [call] = d.serve source state [other] := by
  have htake : Service.take source ⟨d, state, [], []⟩ call =
      Service.take source ⟨d, state, [], []⟩ other := Service.take_congr h
  simp only [serve, List.foldl_cons, htake, List.length_singleton]

end CurrencyDesk
