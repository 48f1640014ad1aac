import CurrencyDesk.Proofs.Text.Case
import Mathlib.Data.Bool.AllAny
import Mathlib.Data.Nat.Bitwise
/-!
# Lower case as a normal form

The runs of characters with a lower case form lead out of themselves: no character that a run
leads to is in a run (`lowerRuns_lead_out`), and so none is a capital sigma, whose form hangs
on what stands around it. A text in lower case is its own lower case, letter by letter and
whatever stands around each, and to lower a text twice is to lower it once (`lower_lower`).

A capital letter of ASCII and its small letter have one form, and they are alike to a sigma
near them. So texts that differ in the case of such letters alone have one lower case
(`SameLetters.lower_eq`).

Key definitions: `IsLower`, `CaseRun.codes`, `bitmaps`, `SameLetters`.
Key theorems: `lowerRuns_lead_out`, `lowerAfter_of_isLower`, `lower_lower`,
`lower_map_toLower`, `SameLetters.lower_eq`.
-/

namespace CurrencyDesk.Text

/-! ### Characters in lower case -/

/-- A character is its own form in lower case. -/
def IsLower (c : Char) : Prop :=
  lowerForm c = [c]

instance : DecidablePred IsLower :=
  fun c => inferInstanceAs (Decidable (lowerForm c = [c]))

theorem IsLower.ne_sigma {c : Char} (h : IsLower c) : c ≠ 'Σ' := by
  rintro rfl
  exact absurd h (by decide +kernel)

/-- The code points of the characters in a run. -/
def CaseRun.codes (r : CaseRun) : List Nat :=
  (List.range ((r.last - r.first) / r.stride + 1)).map (r.first + r.stride * ·)

/-- The code points of the forms that a run gives. -/
def CaseRun.formCodes (r : CaseRun) : List Nat :=
  r.codes.map fun n : Nat => ((n : Int) + r.shift).toNat

theorem CaseRun.mem_codes_of_form? {r : CaseRun} {n m : Nat} (h : r.form? n = some m) :
    n ∈ r.codes ∧ m = ((n : Int) + r.shift).toNat := by
  simp only [CaseRun.form?, Option.ite_none_right_eq_some, Option.some.injEq] at h
  obtain ⟨⟨hfirst, hlast, hstride⟩, hm⟩ := h
  refine ⟨List.mem_map.mpr ⟨(n - r.first) / r.stride, ?_, ?_⟩, hm.symm⟩
  · rw [List.mem_range, Nat.lt_succ_iff]
    exact Nat.div_le_div_right (Nat.sub_le_sub_right hlast _)
  · have := Nat.div_add_mod (n - r.first) r.stride
    omega

theorem CaseRun.mem_formCodes_of_form? {r : CaseRun} {n m : Nat} (h : r.form? n = some m) :
    m ∈ r.formCodes := by
  obtain ⟨hn, rfl⟩ := mem_codes_of_form? h
  exact List.mem_map_of_mem hn

theorem CaseRun.form?_eq_none {r : CaseRun} {n : Nat} (h : n ∉ r.codes) : r.form? n = none :=
  Option.eq_none_iff_forall_ne_some.mpr fun _ hm => h (mem_codes_of_form? hm).1

/-- The number whose bits are at the places that are given: so that code points are compared
with each other all at once. -/
def bitmap (codes : List Nat) : Nat :=
  codes.foldr (fun n bits => 1 <<< n ||| bits) 0

/-- The number whose bits are at all places that are given. -/
def bitmaps (sets : List (List Nat)) : Nat :=
  sets.foldr (fun codes bits => bitmap codes ||| bits) 0

theorem testBit_bitmap (codes : List Nat) (n : Nat) :
    (bitmap codes).testBit n = true ↔ n ∈ codes := by
  induction codes with
  | nil => simp [bitmap]
  | cons c codes ih =>
    have hstep : bitmap (c :: codes) = 1 <<< c ||| bitmap codes := rfl
    rw [hstep, Nat.testBit_or, Nat.one_shiftLeft, Nat.testBit_two_pow, Bool.or_eq_true, ih,
      decide_eq_true_eq, List.mem_cons, eq_comm]

theorem testBit_bitmaps (sets : List (List Nat)) (n : Nat) :
    (bitmaps sets).testBit n = true ↔ ∃ codes ∈ sets, n ∈ codes := by
  induction sets with
  | nil => simp [bitmaps]
  | cons codes sets ih =>
    have hstep : bitmaps (codes :: sets) = bitmap codes ||| bitmaps sets := rfl
    rw [hstep, Nat.testBit_or, Bool.or_eq_true, testBit_bitmap, ih]
    simp

theorem notMem_of_land_eq_zero {sets others : List (List Nat)}
    (h : bitmaps sets &&& bitmaps others = 0) {codes other : List Nat} (hcodes : codes ∈ sets)
    (hother : other ∈ others) {n : Nat} (hn : n ∈ codes) : n ∉ other := by
  intro hmem
  have hbit := congrArg (·.testBit n) h
  simp only [Nat.testBit_land, Nat.zero_testBit, (testBit_bitmaps sets n).mpr ⟨codes, hcodes, hn⟩,
    (testBit_bitmaps others n).mpr ⟨other, hother, hmem⟩, Bool.and_self] at hbit
  cases hbit

/-- No form is among the characters of the runs, and none is the capital I with a dot. -/
theorem lowerRuns_lead_out :
    bitmaps (lowerRuns.map (·.formCodes)) &&& bitmaps ([0x130] :: lowerRuns.map (·.codes)) = 0 := by
  decide +kernel

theorem isLower_of_mem_lowerForm {c d : Char} (h : d ∈ lowerForm c) : IsLower d := by
  unfold lowerForm at h
  split_ifs at h with hdotted
  · simp only [List.mem_cons, List.not_mem_nil, or_false] at h
    rcases h with rfl | rfl <;> decide +kernel
  · obtain rfl := List.mem_singleton.mp h
    rcases formIn_lowerRuns_cases c with hself | ⟨r, hr, hn⟩
    · rw [hself, IsLower, lowerForm, if_neg hdotted, hself]
    · have hout {other : List Nat} (hother : other ∈ [0x130] :: lowerRuns.map (·.codes)) :
          (formIn lowerRuns c).toNat ∉ other :=
        notMem_of_land_eq_zero lowerRuns_lead_out (List.mem_map_of_mem hr) hother
          (CaseRun.mem_formCodes_of_form? hn)
      have hnone : lowerRuns.findSome? (·.form? (formIn lowerRuns c).toNat) = none := by
        rw [List.findSome?_eq_none_iff]
        exact fun other hother => CaseRun.form?_eq_none
          (hout (List.mem_cons_of_mem _ (List.mem_map_of_mem hother)))
      have hne : formIn lowerRuns c ≠ '\u0130' := by
        intro heq
        refine hout List.mem_cons_self ?_
        rw [heq]
        exact List.mem_singleton_self _
      rw [IsLower, lowerForm, if_neg hne, formIn, hnone]

theorem isLower_of_mem_formBefore {afterCased : Bool} {s : List Char} {c d : Char}
    (h : d ∈ formBefore afterCased s c) : IsLower d := by
  unfold formBefore at h
  split_ifs at h with hsigma hend
  · rw [List.mem_singleton.mp h]
    decide +kernel
  · rw [List.mem_singleton.mp h]
    decide +kernel
  · exact isLower_of_mem_lowerForm h

/-! ### Texts in lower case -/

theorem isLower_of_mem_lowerAfter {d : Char} :
    ∀ {s : List Char} {afterCased : Bool}, d ∈ lowerAfter afterCased s → IsLower d
  | [], _, h => by simp [lowerAfter] at h
  | c :: s, afterCased, h => by
    rw [lowerAfter_cons, List.mem_append] at h
    rcases h with h | h
    · exact isLower_of_mem_formBefore h
    · exact isLower_of_mem_lowerAfter h

/-- Characters in lower case stay as they are, whatever stands before them. -/
theorem lowerAfter_of_isLower : ∀ {s : List Char} {afterCased : Bool},
    (∀ c ∈ s, IsLower c) → lowerAfter afterCased s = s
  | [], _, _ => rfl
  | c :: s, afterCased, h => by
    obtain ⟨hc, hs⟩ := List.forall_mem_cons.mp h
    rw [lowerAfter_cons, formBefore, if_neg hc.ne_sigma, hc, lowerAfter_of_isLower hs,
      List.singleton_append]

theorem lower_lower (s : List Char) : lower (lower s) = lower s :=
  lowerAfter_of_isLower fun _ hc => isLower_of_mem_lowerAfter hc

@[simp] theorem lowerString_lowerString (s : String) :
    lowerString (lowerString s) = lowerString s := by
  rw [lowerString, lowerString, String.toList_ofList, lower_lower]

/-! ### Letters of ASCII in either case -/

/-- Texts differ in the case of letters of ASCII alone. -/
def SameLetters (s t : List Char) : Prop :=
  s.map Char.toLower = t.map Char.toLower

instance (s t : List Char) : Decidable (SameLetters s t) :=
  inferInstanceAs (Decidable (s.map Char.toLower = t.map Char.toLower))

/-- The capital letters of ASCII. -/
def capitals : List Char :=
  "ABCDEFGHIJKLMNOPQRSTUVWXYZ".toList

theorem toLower_eq_or_mem_capitals (c : Char) : c.toLower = c ∨ c ∈ capitals := by
  unfold Char.toLower
  split_ifs with h
  · right
    have hlow : 65 ≤ c.toNat := h.1
    have hhigh : c.toNat ≤ 90 := h.2
    have hletters : ∀ n : Fin 26, Char.ofNat (65 + n) ∈ capitals := by decide
    have hc := hletters ⟨c.toNat - 65, by omega⟩
    rwa [Nat.add_sub_cancel' hlow, Char.ofNat_toNat] at hc
  · exact .inl rfl

/-- What a capital letter and its small letter have in common, and where the two stand. -/
theorem small_of_mem_capitals : ∀ c ∈ capitals, (c.toLower ≠ 'Σ' ∧ c ≠ 'Σ') ∧
    lowerForm c.toLower = lowerForm c ∧ isCased c.toLower = isCased c ∧
    (0x41 ≤ c.toNat ∧ c.toNat ≤ 0x5A) ∧ 0x61 ≤ c.toLower.toNat ∧ c.toLower.toNat ≤ 0x7A :=
  List.all_iff_forall_prop.mp (by decide +kernel)

/-- No letter of ASCII is looked through. -/
theorem caseIgnorableRanges_apart : ∀ r ∈ caseIgnorableRanges,
    r.2 < 0x41 ∨ 0x5A < r.1 ∧ r.2 < 0x61 ∨ 0x7A < r.1 := by
  decide +kernel

theorem isCaseIgnorable_of_letter {c : Char}
    (h : 0x41 ≤ c.toNat ∧ c.toNat ≤ 0x5A ∨ 0x61 ≤ c.toNat ∧ c.toNat ≤ 0x7A) :
    isCaseIgnorable c = false := by
  rw [isCaseIgnorable, inRanges, List.any_eq_false]
  intro r hr
  have hapart := caseIgnorableRanges_apart r hr
  simp only [Bool.and_eq_true, decide_eq_true_eq]
  omega

theorem isCased_toLower (c : Char) : isCased c.toLower = isCased c := by
  rcases toLower_eq_or_mem_capitals c with h | h
  · rw [h]
  · exact (small_of_mem_capitals c h).2.2.1

theorem isCaseIgnorable_toLower (c : Char) : isCaseIgnorable c.toLower = isCaseIgnorable c := by
  rcases toLower_eq_or_mem_capitals c with h | h
  · rw [h]
  · obtain ⟨-, -, -, hcapital, hsmall⟩ := small_of_mem_capitals c h
    rw [isCaseIgnorable_of_letter (.inl hcapital), isCaseIgnorable_of_letter (.inr hsmall)]

theorem startsCased_map_toLower (s : List Char) :
    startsCased (s.map Char.toLower) = startsCased s := by
  have hignorable : isCaseIgnorable ∘ Char.toLower = isCaseIgnorable :=
    funext isCaseIgnorable_toLower
  rw [startsCased, List.dropWhile_map, hignorable, startsCased]
  cases s.dropWhile isCaseIgnorable with
  | nil => rfl
  | cons c s => exact isCased_toLower c

theorem formBefore_toLower (afterCased : Bool) (s : List Char) (c : Char) :
    formBefore afterCased (s.map Char.toLower) c.toLower = formBefore afterCased s c := by
  rw [formBefore, startsCased_map_toLower, formBefore]
  rcases toLower_eq_or_mem_capitals c with h | h
  · rw [h]
  · obtain ⟨⟨hsmall, hcapital⟩, hform, -⟩ := small_of_mem_capitals c h
    rw [if_neg hsmall, if_neg hcapital, hform]

theorem lowerAfter_map_toLower : ∀ (s : List Char) (afterCased : Bool),
    lowerAfter afterCased (s.map Char.toLower) = lowerAfter afterCased s
  | [], _ => rfl
  | c :: s, afterCased => by
    rw [List.map_cons, lowerAfter_cons, formBefore_toLower, isCaseIgnorable_toLower,
      isCased_toLower, lowerAfter_map_toLower, lowerAfter_cons]

theorem lower_map_toLower (s : List Char) : lower (s.map Char.toLower) = lower s :=
  lowerAfter_map_toLower s false

/-- Texts that differ in the case of letters of ASCII alone have one lower case. -/
theorem SameLetters.lower_eq {s t : List Char} (h : SameLetters s t) : lower s = lower t := by
  rw [← lower_map_toLower s, ← lower_map_toLower t, h]

end CurrencyDesk.Text
