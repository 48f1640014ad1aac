/-!
# Cutting a list at separators

`splitWhen p s` cuts a list at every element that satisfies `p`: the pieces hold
no separator, there is one more of them than there are separators, and between
two neighbouring separators stands an empty piece. Words, lines, paths and the parts
of a locale name are all read with it. A list splits at a separator in its middle
(`splitWhen_append_cons`), and one without separators is a single piece. The first piece is
what stands in front of the first separator (`headD_splitWhen`).

Key definitions: `splitWhen`, `extendFirst`.
Key theorems: `splitWhen_append_cons`, `eq_false_of_mem_splitWhen`,
`splitWhen_eq_singleton`, `headD_splitWhen`.
-/

namespace CurrencyDesk.Text

/-- Puts an element in front of the first piece. -/
def extendFirst (a : α) : List (List α) → List (List α)
  | [] => [[a]]
  | piece :: pieces => (a :: piece) :: pieces

/-- The pieces of a list between the elements that satisfy `p`. -/
def splitWhen (p : α → Bool) : List α → List (List α)
  | [] => [[]]
  | a :: s => if p a then [] :: splitWhen p s else extendFirst a (splitWhen p s)

theorem extendFirst_ne_nil (a : α) (pieces : List (List α)) : extendFirst a pieces ≠ [] := by
  cases pieces <;> simp [extendFirst]

theorem splitWhen_ne_nil (p : α → Bool) (s : List α) : splitWhen p s ≠ [] := by
  cases s with
  | nil => simp [splitWhen]
  | cons a s =>
    by_cases h : p a = true
    · simp [splitWhen, h]
    · simpa [splitWhen, h] using extendFirst_ne_nil a _

theorem extendFirst_append (a : α) {pieces : List (List α)} (h : pieces ≠ [])
    (more : List (List α)) : extendFirst a (pieces ++ more) = extendFirst a pieces ++ more := by
  cases pieces with
  | nil => exact absurd rfl h
  | cons piece pieces => rfl

theorem splitWhen_append_cons {p : α → Bool} {a : α} (h : p a = true) (s t : List α) :
    splitWhen p (s ++ a :: t) = splitWhen p s ++ splitWhen p t := by
  induction s with
  | nil => simp [splitWhen, h]
  | cons b s ih =>
    by_cases hb : p b = true
    · simp [splitWhen, hb, ih]
    · simp [splitWhen, hb, ih, extendFirst_append b (splitWhen_ne_nil p s)]

theorem splitWhen_eq_singleton {p : α → Bool} {s : List α} (h : ∀ a ∈ s, p a = false) :
    splitWhen p s = [s] := by
  induction s with
  | nil => rfl
  | cons a s ih =>
    simp only [List.mem_cons, forall_eq_or_imp] at h
    simp [splitWhen, h.1, ih h.2, extendFirst]

theorem eq_false_of_mem_splitWhen {p : α → Bool} {s piece : List α} {a : α}
    (hp : piece ∈ splitWhen p s) (ha : a ∈ piece) : p a = false := by
  induction s generalizing piece with
  | nil => simp_all [splitWhen]
  | cons b s ih =>
    by_cases hb : p b = true
    · simp only [splitWhen, hb, if_true, List.mem_cons] at hp
      rcases hp with rfl | hp
      · simp at ha
      · exact ih hp ha
    · simp only [splitWhen, hb, if_false, Bool.false_eq_true] at hp
      cases hs : splitWhen p s with
      | nil => exact absurd hs (splitWhen_ne_nil p s)
      | cons first pieces =>
        rw [hs] at hp ih
        simp only [extendFirst, List.mem_cons] at hp
        rcases hp with rfl | hp
        · rcases List.mem_cons.1 ha with rfl | ha
          · simpa using hb
          · exact ih (List.mem_cons_self ..) ha
        · exact ih (List.mem_cons_of_mem _ hp) ha

/-- The first piece of a list ends at the first separator. -/
theorem headD_splitWhen (p : α → Bool) (s : List α) :
    (splitWhen p s).headD [] = s.takeWhile (!p ·) := by
  induction s with
  | nil => rfl
  | cons a s ih =>
    cases ha : p a with
    | true => simp [splitWhen, ha]
    | false =>
      obtain ⟨piece, pieces, hpieces⟩ := List.exists_cons_of_ne_nil (splitWhen_ne_nil p s)
      rw [hpieces, List.headD_cons] at ih
      simp [splitWhen, ha, hpieces, extendFirst, ih]

/-- What stands behind the end of a run does not belong to it. -/
theorem takeWhile_append_cons {p : α → Bool} {a : α} (ha : p a = false) (s t : List α) :
    (s ++ a :: t).takeWhile p = s.takeWhile p := by
  induction s with
  | nil => simp [ha]
  | cons b s ih => simp [List.takeWhile_cons, ih]

/-- What is left behind a run does not go on with it. -/
theorem eq_false_of_mem_head?_dropWhile {p : α → Bool} {s : List α} {a : α}
    (h : a ∈ (s.dropWhile p).head?) : p a = false := by
  have hhead := List.head?_dropWhile_not p s
  rwa [Option.mem_def.mp h] at hhead

end CurrencyDesk.Text
