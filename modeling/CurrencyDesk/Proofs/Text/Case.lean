import CurrencyDesk.Text.Case
import Mathlib.Data.List.Basic
/-!
# What the lower case leaves alone

A character changes in lower case only into a small letter or into something beyond ASCII. So
a character below the small letters that is found in the lower case of a text stood in the
text (`mem_of_mem_lower`), and a lower case of such characters alone is the text itself
(`eq_of_lower_eq`).

Key definitions: `isBelowSmall`.
Key theorems: `mem_of_mem_lower`, `eq_of_lower_eq`.
-/

namespace CurrencyDesk.Text

/-- Whether a character comes before the small letters, as digits, capital letters and most
marks of ASCII do. -/
def isBelowSmall (c : Char) : Bool :=
  c.toNat < 0x61

/-! ### The form of one character -/

/-- The runs lead to code points from the first small letter on, to surrogates nowhere. -/
theorem bounds_of_mem_lowerRuns : ∀ r ∈ lowerRuns, 0x61 ≤ r.first + r.shift ∧
    (r.last + r.shift < 0xD800 ∨ 0xDFFF < r.first + r.shift ∧ r.last + r.shift < 0x110000) := by
  decide +kernel

theorem formIn_lowerRuns_cases (c : Char) :
    formIn lowerRuns c = c ∨
      ∃ r ∈ lowerRuns, r.form? c.toNat = some (formIn lowerRuns c).toNat := by
  cases hform : lowerRuns.findSome? (·.form? c.toNat) with
  | none => exact .inl (by simp [formIn, hform])
  | some n =>
    right
    obtain ⟨r, hr, hn⟩ := List.exists_of_findSome?_eq_some hform
    have hbounds := bounds_of_mem_lowerRuns r hr
    have hvalid : n.isValidChar := by
      simp only [CaseRun.form?, Option.ite_none_right_eq_some, Option.some.injEq] at hn
      unfold Nat.isValidChar
      omega
    have hcode : (formIn lowerRuns c).toNat = n := by
      simp only [formIn, hform]
      rw [Char.ofNat, dif_pos hvalid]
      rfl
    exact ⟨r, hr, hcode ▸ hn⟩

theorem eq_of_isBelowSmall_formIn {c : Char} (h : isBelowSmall (formIn lowerRuns c) = true) :
    formIn lowerRuns c = c := by
  rcases formIn_lowerRuns_cases c with hself | ⟨r, hr, hn⟩
  · exact hself
  · have hbounds := bounds_of_mem_lowerRuns r hr
    simp only [CaseRun.form?, Option.ite_none_right_eq_some, Option.some.injEq] at hn
    rw [isBelowSmall, decide_eq_true_eq] at h
    omega

/-- The lower case form of a character in front of a text. -/
def formBefore (afterCased : Bool) (s : List Char) (c : Char) : List Char :=
  if c = 'Σ' then [if afterCased && !startsCased s then 'ς' else 'σ'] else lowerForm c

theorem lowerAfter_cons (afterCased : Bool) (c : Char) (s : List Char) :
    lowerAfter afterCased (c :: s) =
      formBefore afterCased s c ++
        lowerAfter (if isCaseIgnorable c then afterCased else isCased c) s :=
  rfl

theorem formBefore_ne_nil (afterCased : Bool) (s : List Char) (c : Char) :
    formBefore afterCased s c ≠ [] := by
  unfold formBefore lowerForm
  split_ifs <;> exact List.cons_ne_nil _ _

theorem formBefore_eq_singleton {afterCased : Bool} {s : List Char} {c d : Char}
    (h : d ∈ formBefore afterCased s c) (hd : isBelowSmall d = true) :
    formBefore afterCased s c = [d] ∧ c = d := by
  unfold formBefore lowerForm at h ⊢
  split_ifs at h ⊢ with hsigma hend hdotted
  all_goals simp only [List.mem_cons, List.not_mem_nil, or_false] at h
  · exact absurd hd (by rw [h]; decide)
  · exact absurd hd (by rw [h]; decide)
  · rcases h with rfl | rfl <;> exact absurd hd (by decide)
  · subst h
    exact ⟨rfl, (eq_of_isBelowSmall_formIn hd).symm⟩

/-! ### The lower case of a text -/

theorem mem_of_mem_lowerAfter {d : Char} (hd : isBelowSmall d = true) :
    ∀ {s : List Char} {afterCased : Bool}, d ∈ lowerAfter afterCased s → d ∈ s
  | [], _, h => by simp [lowerAfter] at h
  | c :: s, afterCased, h => by
    rw [lowerAfter_cons, List.mem_append] at h
    rcases h with h | h
    · obtain ⟨-, rfl⟩ := formBefore_eq_singleton h hd
      exact List.mem_cons_self
    · exact List.mem_cons_of_mem c (mem_of_mem_lowerAfter hd h)

/-- A character below the small letters in the lower case of a text is one of the text. -/
theorem mem_of_mem_lower {d : Char} {s : List Char} (hd : isBelowSmall d = true)
    (h : d ∈ lower s) : d ∈ s :=
  mem_of_mem_lowerAfter hd h

theorem lowerAfter_eq_self : ∀ {s : List Char} {afterCased : Bool},
    (∀ d ∈ lowerAfter afterCased s, isBelowSmall d = true) → lowerAfter afterCased s = s
  | [], _, _ => rfl
  | c :: s, afterCased, h => by
    rw [lowerAfter_cons] at h ⊢
    obtain ⟨d, hd⟩ := List.exists_mem_of_ne_nil _ (formBefore_ne_nil afterCased s c)
    obtain ⟨hform, rfl⟩ := formBefore_eq_singleton hd (h d (List.mem_append_left _ hd))
    have htail := lowerAfter_eq_self fun d hd => h d (List.mem_append_right _ hd)
    rw [hform, htail, List.singleton_append]

/-- A lower case of characters below the small letters alone is the text itself. -/
theorem eq_of_lower_eq {s t : List Char} (h : lower s = t) (ht : ∀ d ∈ t, isBelowSmall d = true) :
    s = t := by
  subst h
  exact (lowerAfter_eq_self ht).symm

end CurrencyDesk.Text
