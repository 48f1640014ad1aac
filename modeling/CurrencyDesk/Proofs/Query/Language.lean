import CurrencyDesk.Proofs.Binary64.Grammar
import CurrencyDesk.Proofs.Text.Words
import CurrencyDesk.Query
/-!
# The language of queries

A text is a query when it is cut into one word or four, of which the first is a numeral of
the grammar that does not round to infinity; and then the amount is what the numeral
rounds to, and the codes are those of the second and the fourth word, or of the settings,
in lower case. The words, the numerals and the rounding are said by rules that do not
mention how a text is read.

Key theorems: `amount?_eq_some_iff`, `ofWords?_eq_some_iff`, `parse?_reads_language`.
-/

namespace CurrencyDesk

open Binary64
open Text (Cut words words_eq_iff lowerString)

theorem Numeral.exists_rounds (n : Numeral) (h : |n.toRat| < overflow) :
    ∃ x : Finite, x.Rounds n.negative |n.toRat| := by
  have hrounds := n.roundsTo_toBinary64
  rcases hb : n.toBinary64 with _ | s | x
  · rw [hb] at hrounds
    exact hrounds.elim
  · rw [hb] at hrounds
    exact absurd hrounds.2 (not_le.mpr h)
  · rw [hb] at hrounds
    exact ⟨x, hrounds⟩

namespace Request

/-- The words that denote an amount are the numerals that round to a finite number. -/
theorem amount?_eq_some_iff {word : List Char} {amount : Binary64} :
    amount? word = some amount ↔ ∃ (n : Numeral) (x : Finite), Numeral.Spells word n ∧
      x.Rounds n.negative |n.toRat| ∧ amount = .finite x := by
  rw [amount?, Binary64.ofChars?]
  constructor
  · intro h
    obtain ⟨h, hfinite⟩ := Option.filter_eq_some_iff.mp h
    rcases hn : Numeral.ofChars? word with _ | n
    · -- a name is of no finite number
      rw [hn] at h
      simp only [Binary64.ofName?] at h
      split_ifs at h
      · obtain rfl := Option.some.inj h
        cases hfinite
      · obtain rfl := Option.some.inj h
        cases hfinite
    · rw [hn] at h
      have hrounds := n.roundsTo_toBinary64
      obtain rfl := Option.some.inj h
      rcases hb : n.toBinary64 with _ | s | x
      · rw [hb] at hfinite
        cases hfinite
      · rw [hb] at hfinite
        cases hfinite
      · rw [hb] at hrounds
        exact ⟨n, x, Numeral.ofChars?_eq_some_iff.mp hn, hrounds, rfl⟩
  · rintro ⟨n, x, hspells, hrounds, rfl⟩
    have hx : n.toBinary64 = .finite x := n.roundsTo_toBinary64.unique hrounds
    rw [Numeral.ofChars?_eq_some_iff.mpr hspells]
    simp only [hx]
    rfl

/-- The requests of words: of one, between the currencies of the settings, and of four,
between the second and the fourth. -/
theorem ofWords?_eq_some_iff {settings : Settings} {ws : List (List Char)} {request : Request} :
    ofWords? settings ws = some request ↔ ∃ word, amount? word = some request.amount ∧
      (ws = [word] ∧ request.source = lowerString settings.defaultPair.1 ∧
          request.target = lowerString settings.defaultPair.2 ∨
        ∃ source connective target, ws = [word, source, connective, target] ∧
          request.source = lowerString (String.ofList source) ∧
          request.target = lowerString (String.ofList target)) := by
  constructor
  · intro h
    unfold ofWords? at h
    split at h
    · rename_i word
      obtain ⟨amount, hamount, rfl⟩ := Option.map_eq_some_iff.mp h
      exact ⟨word, hamount, .inl ⟨rfl, rfl, rfl⟩⟩
    · rename_i word source connective target
      obtain ⟨amount, hamount, rfl⟩ := Option.map_eq_some_iff.mp h
      exact ⟨word, hamount, .inr ⟨source, connective, target, rfl, rfl, rfl⟩⟩
    · cases h
  · rintro ⟨word, hamount, ⟨rfl, hsource, htarget⟩ |
      ⟨source, connective, target, rfl, hsource, htarget⟩⟩
    · rw [ofWords?, hamount, Option.map_some, make, ← hsource, ← htarget]
    · rw [ofWords?, hamount, Option.map_some, make, ← hsource, ← htarget]

theorem parse?_eq_some_iff {settings : Settings} {text : String} {request : Request} :
    parse? settings text = some request ↔ ∃ (word : List Char) (n : Numeral) (x : Finite),
      Numeral.Spells word n ∧ x.Rounds n.negative |n.toRat| ∧ request.amount = .finite x ∧
        (Cut text.toList [word] ∧ request.source = lowerString settings.defaultPair.1 ∧
            request.target = lowerString settings.defaultPair.2 ∨
          ∃ source connective target, Cut text.toList [word, source, connective, target] ∧
            request.source = lowerString (String.ofList source) ∧
            request.target = lowerString (String.ofList target)) := by
  simp only [← words_eq_iff]
  rw [parse?, ofWords?_eq_some_iff]
  constructor
  · rintro ⟨word, hamount, hwords⟩
    obtain ⟨n, x, hspells, hrounds, hx⟩ := amount?_eq_some_iff.mp hamount
    exact ⟨word, n, x, hspells, hrounds, hx, hwords⟩
  · rintro ⟨word, n, x, hspells, hrounds, hx, hwords⟩
    exact ⟨word, amount?_eq_some_iff.mpr ⟨n, x, hspells, hrounds, hx⟩, hwords⟩

/-- A text whose first word is a name of what is not finite is no query. -/
theorem parse?_of_name {settings : Settings} {text : String} {sign name : List Char}
    {negative : Bool} {rest : List (List Char)} (hsign : SpellsSign sign negative)
    (hname : name.map Char.toLower ∈ nonFiniteNames)
    (hcut : Cut text.toList ((sign ++ name) :: rest)) :
    parse? settings text = none := by
  rw [Option.eq_none_iff_forall_ne_some]
  intro request h
  obtain ⟨word, n, x, hspells, -, -, hwords⟩ := parse?_eq_some_iff.mp h
  have hword : word = sign ++ name := by
    rcases hwords with ⟨hcut', -⟩ | ⟨source, connective, target, hcut', -⟩
    · have heq := (words_eq_iff.mpr hcut').symm.trans (words_eq_iff.mpr hcut)
      exact (List.cons.inj heq).1
    · have heq := (words_eq_iff.mpr hcut').symm.trans (words_eq_iff.mpr hcut)
      exact (List.cons.inj heq).1
  rw [hword] at hspells
  have hnone := Numeral.ofChars?_of_name hsign hname
  rw [Numeral.ofChars?_eq_some_iff.mpr hspells] at hnone
  cases hnone

/-- **The queries are exactly the texts of the language, and each is read as what it says.** -/
theorem parse?_reads_language (settings : Settings) (text : String) :
    ((parse? settings text).isSome ↔ ∃ ws, Cut text.toList ws ∧ (ws.length = 1 ∨ ws.length = 4) ∧
      ∃ word n, ws.head? = some word ∧ Numeral.Spells word n ∧ |n.toRat| < overflow) ∧
    (∀ request, parse? settings text = some request ↔
      ∃ (word : List Char) (n : Numeral) (x : Finite),
        Numeral.Spells word n ∧ x.Rounds n.negative |n.toRat| ∧ request.amount = .finite x ∧
          (Cut text.toList [word] ∧ request.source = lowerString settings.defaultPair.1 ∧
              request.target = lowerString settings.defaultPair.2 ∨
            ∃ source connective target, Cut text.toList [word, source, connective, target] ∧
              request.source = lowerString (String.ofList source) ∧
              request.target = lowerString (String.ofList target))) ∧
    ∀ sign negative name rest, SpellsSign sign negative →
      name.map Char.toLower ∈ nonFiniteNames → Cut text.toList ((sign ++ name) :: rest) →
        parse? settings text = none := by
  refine ⟨⟨fun h => ?_, fun h => ?_⟩, fun request => parse?_eq_some_iff,
    fun sign negative name rest hsign hname hcut => parse?_of_name hsign hname hcut⟩
  · obtain ⟨request, hrequest⟩ := Option.isSome_iff_exists.mp h
    obtain ⟨word, n, x, hspells, hrounds, -, hwords⟩ := parse?_eq_some_iff.mp hrequest
    rcases hwords with ⟨hcut, -⟩ | ⟨source, connective, target, hcut, -⟩
    · exact ⟨_, hcut, .inl rfl, word, n, rfl, hspells, hrounds.inRange⟩
    · exact ⟨_, hcut, .inr rfl, word, n, rfl, hspells, hrounds.inRange⟩
  · obtain ⟨ws, hcut, hlength, word, n, hhead, hspells, hrange⟩ := h
    obtain ⟨x, hrounds⟩ := n.exists_rounds hrange
    rw [Option.isSome_iff_exists]
    rcases hlength with hone | hfour
    · obtain ⟨w, rfl⟩ := List.length_eq_one_iff.mp hone
      obtain rfl := Option.some.inj hhead
      exact ⟨⟨.finite x, _, _⟩, parse?_eq_some_iff.mpr
        ⟨w, n, x, hspells, hrounds, rfl, .inl ⟨hcut, rfl, rfl⟩⟩⟩
    · obtain ⟨w, source, connective, target, rfl⟩ := List.length_eq_four.mp hfour
      obtain rfl := Option.some.inj hhead
      exact ⟨⟨.finite x, _, _⟩, parse?_eq_some_iff.mpr
        ⟨w, n, x, hspells, hrounds, rfl, .inr ⟨source, connective, target, hcut, rfl, rfl⟩⟩⟩

end Request

end CurrencyDesk
