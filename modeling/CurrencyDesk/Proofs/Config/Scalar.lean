import CurrencyDesk.Config.Document
import Mathlib.Data.List.Forall2
import Mathlib.Data.Nat.Digits.Defs
/-!
# What scalars say

A scalar without a tag is a text, in some style. As a text it says what is written, in any
style. As a text that may be absent it says so only when it is plain and a spelling of null,
or nothing at all. As a duration it has to be plain, and to write a natural number below
`2 ^ 64`: a decimal one without a zero in front, or one in base 16, 8 or 2 behind the mark of
the base, and a plus sign may go before either. As a direction it has to be the name of one.
These are said by rules that do not mention how a scalar is read, and the readers agree.

Key definitions: `WritesDigits`, `WritesNatural`, `Scalar`, `Scalar.IsShown`,
`Scalar.IsDuration`, `Scalar.IsNull`, `Scalar.optional`, `Scalar.Names`, `Reads`.
Key theorems: `number?_eq_some_iff`, `reads_natural?`, `reads_text?`, `reads_optionalText?`,
`reads_direction?`.
-/

namespace CurrencyDesk.ConfigReading

attribute [local instance] corePow

open Yaml (Node Document)

/-! ### Numbers in writing -/

/-- A character is a digit of a base up to 16, whose letters may be small or capital. -/
def IsDigit (base : Nat) (c : Char) (digit : Nat) : Prop :=
  digit < base ∧ (c = Text.hexDigit digit ∨ c = Text.capitalHexDigit digit)

/-- Digits of a base, at least one, write a number. -/
def WritesDigits (base : Nat) (s : List Char) (n : Nat) : Prop :=
  s ≠ [] ∧ ∃ digits, List.Forall₂ (IsDigit base) s digits ∧ Nat.ofDigits base digits.reverse = n

/-- A number is written without a sign. -/
inductive WritesUnsigned : List Char → Nat → Prop
  | decimal {s : List Char} {n : Nat} : WritesDigits 10 s n → (s.head? = some '0' → s = ['0']) →
      WritesUnsigned s n
  | hexadecimal {s : List Char} {n : Nat} : WritesDigits 16 s n →
      WritesUnsigned ('0' :: 'x' :: s) n
  | octal {s : List Char} {n : Nat} : WritesDigits 8 s n → WritesUnsigned ('0' :: 'o' :: s) n
  | binary {s : List Char} {n : Nat} : WritesDigits 2 s n → WritesUnsigned ('0' :: 'b' :: s) n

/-- A number is written, and a plus sign may go before it. -/
inductive WritesNatural : List Char → Nat → Prop
  | bare {s : List Char} {n : Nat} : WritesUnsigned s n → WritesNatural s n
  | plus {s : List Char} {n : Nat} : WritesUnsigned s n → WritesNatural ('+' :: s) n

/-! ### Numbers are read -/

theorem mapM_eq_some_iff {α β : Type} {f : α → Option β} : ∀ {l : List α} {r : List β},
    l.mapM f = some r ↔ List.Forall₂ (fun a b => f a = some b) l r
  | [], r => by simp [List.forall₂_nil_left_iff, eq_comm]
  | a :: l, r => by
    rw [List.mapM_cons, List.forall₂_cons_left_iff]
    simp only [Option.bind_eq_bind, Option.bind_eq_some_iff, mapM_eq_some_iff, Option.pure_def,
      Option.some.injEq]
    constructor
    · rintro ⟨b, hb, r, hr, rfl⟩
      exact ⟨b, r, hb, hr, rfl⟩
    · rintro ⟨b, r, hb, hr, rfl⟩
      exact ⟨b, hb, r, hr, rfl⟩

theorem hexValue?_eq_some_iff {c : Char} {digit : Nat} :
    Text.hexValue? c = some digit ↔ IsDigit 16 c digit := by
  constructor
  · intro h
    have hc : c = Char.ofNat c.toNat := (Char.ofNat_toNat c).symm
    unfold Text.hexValue? at h
    split_ifs at h with hdecimal hsmall hcapital
    · obtain rfl := Option.some.inj h
      have hlow : 48 ≤ c.toNat := hdecimal.1
      have hhigh : c.toNat ≤ 57 := hdecimal.2
      refine ⟨by omega, .inl ?_⟩
      rw [Text.hexDigit, if_pos (by omega), Nat.add_sub_cancel' hlow, ← hc]
    · obtain rfl := Option.some.inj h
      have hlow : 97 ≤ c.toNat := hsmall.1
      have hhigh : c.toNat ≤ 102 := hsmall.2
      refine ⟨by omega, .inl ?_⟩
      rw [Text.hexDigit, if_neg (by omega), Nat.add_sub_cancel' (by omega), ← hc]
    · obtain rfl := Option.some.inj h
      have hlow : 65 ≤ c.toNat := hcapital.1
      have hhigh : c.toNat ≤ 70 := hcapital.2
      refine ⟨by omega, .inr ?_⟩
      rw [Text.capitalHexDigit, if_neg (by omega), Nat.add_sub_cancel' (by omega), ← hc]
  · rintro ⟨hlt, rfl | rfl⟩
    · have all : ∀ k : Fin 16, Text.hexValue? (Text.hexDigit k) = some k.val := by decide
      exact all ⟨digit, hlt⟩
    · exact Text.hexValue?_capitalHexDigit hlt

section

variable {base : Nat} {s : List Char} {n : Nat}

theorem digit?_eq_some_iff (hbase : base ≤ 16) {c : Char} {digit : Nat} :
    digit? base c = some digit ↔ IsDigit base c digit := by
  rw [digit?, Option.filter_eq_some_iff, hexValue?_eq_some_iff, decide_eq_true_eq]
  constructor
  · rintro ⟨⟨-, hc⟩, hlt⟩
    exact ⟨hlt, hc⟩
  · rintro ⟨hlt, hc⟩
    exact ⟨⟨Nat.lt_of_lt_of_le hlt hbase, hc⟩, hlt⟩

theorem digits?_eq_some_iff (hbase : base ≤ 16) :
    digits? base s = some n ↔ WritesDigits base s n := by
  unfold digits? WritesDigits
  split_ifs with hempty
  · simp [List.isEmpty_iff.mp hempty]
  · have hne : s ≠ [] := fun h => hempty (List.isEmpty_iff.mpr h)
    simp only [Option.map_eq_some_iff, mapM_eq_some_iff, digit?_eq_some_iff hbase, ne_eq, hne,
      not_false_eq_true, true_and, Nat.ofDigits_eq_foldr, List.foldr_reverse, Nat.cast_id,
      Nat.add_comm]

/-- A zero stands in front only when it is all there is. -/
theorem decimal?_eq_some_iff :
    decimal? s = some n ↔ WritesDigits 10 s n ∧ (s.head? = some '0' → s = ['0']) := by
  unfold decimal?
  split
  · simp
  · rename_i hzeros
    rw [digits?_eq_some_iff (by decide), iff_self_and]
    rintro - hhead
    obtain ⟨rest, rfl⟩ := List.head?_eq_some_iff.mp hhead
    cases rest with
    | nil => rfl
    | cons c rest => exact (hzeros c rest rfl).elim

theorem marked?_eq_some_iff : marked? s = some n ↔ ∃ digits,
    s = '0' :: 'x' :: digits ∧ WritesDigits 16 digits n ∨
      s = '0' :: 'o' :: digits ∧ WritesDigits 8 digits n ∨
      s = '0' :: 'b' :: digits ∧ WritesDigits 2 digits n := by
  unfold marked?
  split
  · simp [digits?_eq_some_iff]
  · simp [digits?_eq_some_iff]
  · simp [digits?_eq_some_iff]
  · rename_i hx ho hb
    simp only [reduceCtorEq, false_iff, not_exists, not_or, not_and]
    exact fun digits => ⟨fun h => absurd h (hx digits), fun h => absurd h (ho digits),
      fun h => absurd h (hb digits)⟩

theorem writesUnsigned_iff : WritesUnsigned s n ↔ marked? s = some n ∨ decimal? s = some n := by
  rw [marked?_eq_some_iff, decimal?_eq_some_iff]
  constructor
  · rintro (⟨hdigits, hzero⟩ | hdigits | hdigits | hdigits)
    · exact .inr ⟨hdigits, hzero⟩
    · exact .inl ⟨_, .inl ⟨rfl, hdigits⟩⟩
    · exact .inl ⟨_, .inr (.inl ⟨rfl, hdigits⟩)⟩
    · exact .inl ⟨_, .inr (.inr ⟨rfl, hdigits⟩)⟩
  · rintro (⟨digits, ⟨rfl, hdigits⟩ | ⟨rfl, hdigits⟩ | ⟨rfl, hdigits⟩⟩ | ⟨hdigits, hzero⟩)
    · exact .hexadecimal hdigits
    · exact .octal hdigits
    · exact .binary hdigits
    · exact .decimal hdigits hzero

theorem decimal?_of_marked? (h : marked? s = some n) : decimal? s = none := by
  obtain ⟨digits, ⟨rfl, -⟩ | ⟨rfl, -⟩ | ⟨rfl, -⟩⟩ := marked?_eq_some_iff.mp h
  · rfl
  · rfl
  · rfl

theorem not_writesUnsigned_plus : ¬WritesUnsigned ('+' :: s) n := by
  rintro ⟨⟨-, digits, hdigits, -⟩, -⟩
  obtain ⟨digit, rest, ⟨hlt, hdigit⟩, -, -⟩ := List.forall₂_cons_left_iff.mp hdigits
  have hvalue := hexValue?_eq_some_iff.mpr ⟨Nat.lt_of_lt_of_le hlt (by decide), hdigit⟩
  cases hvalue

theorem writesNatural_iff : WritesNatural s n ↔ WritesUnsigned (dropPlus s) n := by
  constructor
  · rintro (h | h)
    · have hbare : dropPlus s = s := by
        unfold dropPlus
        split
        · exact absurd h not_writesUnsigned_plus
        · rfl
      rwa [hbare]
    · exact h
  · intro h
    unfold dropPlus at h
    split at h
    · exact .plus h
    · exact .bare h

/-- The numbers that are read are those that are written, and fit. -/
theorem number?_eq_some_iff : number? s = some n ↔ WritesNatural s n ∧ n < 2 ^ 64 := by
  rw [writesNatural_iff, writesUnsigned_iff]
  unfold number?
  simp only [Option.or_eq_some_iff, Option.filter_eq_some_iff, decide_eq_true_eq,
    Option.filter_eq_none_iff]
  constructor
  · rintro (⟨h, hfits⟩ | ⟨-, h, hfits⟩)
    · exact ⟨.inl h, hfits⟩
    · exact ⟨.inr h, hfits⟩
  · rintro ⟨h | h, hfits⟩
    · exact .inl ⟨h, hfits⟩
    -- a number behind a mark that does not fit is not read as a decimal one instead
    · refine .inr ⟨fun m hm => ?_, h, hfits⟩
      rw [decimal?_of_marked? hm] at h
      cases h

-- the largest number and the one behind it, a sign with a mark, and zeros in front
example : number? "0xFFFFFFFFFFFFFFFF".toList = some 18446744073709551615 ∧
    number? "18446744073709551616".toList = none ∧ number? "+0o17".toList = some 15 ∧
    number? "007".toList = none := by
  decide +kernel

end

/-! ### Scalars without a tag -/

/-- A scalar without a tag: its style, and its text. -/
structure Scalar where
  style : Yaml.ScalarStyle
  text : List Char
deriving DecidableEq

/-- The name of a direction. -/
def directionName : Direction → List Char
  | .localToGlobal => "local_to_global".toList
  | .globalToLocal => "global_to_local".toList

namespace Scalar

/-- A node of a document stands for a scalar. -/
def IsShown (d : Document) (node : Node) (s : Scalar) : Prop :=
  d.resolve node = .scalar s.style none s.text

/-- A scalar is an integer of 64 bits without a sign. -/
def IsDuration (s : Scalar) (n : Nat) : Prop :=
  s.style = .plain ∧ WritesNatural s.text n ∧ n < 2 ^ 64

/-- A scalar says that there is nothing. -/
def IsNull (s : Scalar) : Prop :=
  s.style = .plain ∧ s.text ∈ [[], "null".toList, "Null".toList, "NULL".toList, "~".toList]

instance : DecidablePred IsNull := fun s =>
  inferInstanceAs (Decidable (s.style = .plain ∧ s.text ∈ [_, _, _, _, _]))

/-- The text of a scalar, as it is written. -/
def word (s : Scalar) : String :=
  String.ofList s.text

/-- The text of a scalar, if there is one. -/
def optional (s : Scalar) : Option String :=
  if s.IsNull then none else some s.word

/-- A scalar is the name of a direction. -/
def Names (s : Scalar) (direction : Direction) : Prop :=
  s.text = directionName direction

end Scalar

/-- A reader of nodes finds what is meant by whatever a node shows. -/
def Reads {α β : Type} (shows : Node → β → Prop) (read : Node → Option α) (means : β → α → Prop) :
    Prop :=
  ∀ {node v x}, shows node v → (read node = some x ↔ means v x)

section

variable (d : Document)

theorem reads_natural? : Reads (Scalar.IsShown d) (natural? d) Scalar.IsDuration := by
  intro node s n h
  rw [natural?, h, Scalar.IsDuration, ← number?_eq_some_iff]
  cases s.style with
  | plain => simp
  | _ => simp

theorem reads_text? : Reads (Scalar.IsShown d) (text? d) (·.word = ·) := by
  intro node s word h
  rw [text?, scalarText?, h, Option.map_some, Option.some.injEq]
  exact Iff.rfl

theorem isNull_iff {style : Yaml.ScalarStyle} {text : List Char} :
    (⟨style, text⟩ : Scalar).IsNull ↔ style = .plain ∧ (text.isEmpty || isNull text) = true := by
  simp [Scalar.IsNull, isNull]

theorem reads_optionalText? : Reads (Scalar.IsShown d) (optionalText? d) (·.optional = ·) := by
  rintro node ⟨style, text⟩ found h
  have hfound : optionalText? d node = some (⟨style, text⟩ : Scalar).optional := by
    rw [optionalText?, h, Scalar.optional]
    simp only [isNull_iff]
    cases style with
    | plain =>
      simp only [true_and]
      split_ifs <;> rfl
    | _ => simp [Scalar.word]
  rw [hfound, Option.some.injEq]

theorem directionOfName?_eq_some_iff {name : List Char} {direction : Direction} :
    directionOfName? name = some direction ↔ name = directionName direction := by
  have hnames : directionName .localToGlobal ≠ directionName .globalToLocal := by decide
  unfold directionOfName?
  split_ifs with hlocal hglobal
  · rw [hlocal]
    cases direction with
    | localToGlobal => exact iff_of_true rfl rfl
    | globalToLocal => exact iff_of_false nofun hnames
  · rw [hglobal]
    cases direction with
    | localToGlobal => exact iff_of_false nofun hnames.symm
    | globalToLocal => exact iff_of_true rfl rfl
  · cases direction with
    | localToGlobal => exact iff_of_false nofun hlocal
    | globalToLocal => exact iff_of_false nofun hglobal

theorem reads_direction? : Reads (Scalar.IsShown d) (direction? d) Scalar.Names := by
  intro node s direction h
  rw [direction?, h]
  exact directionOfName?_eq_some_iff

end

end CurrencyDesk.ConfigReading
