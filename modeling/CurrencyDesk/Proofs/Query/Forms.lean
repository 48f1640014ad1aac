import CurrencyDesk.Proofs.Desk.Service
import CurrencyDesk.Proofs.Settings
/-!
# The short and the long form of a query

An amount alone is converted between the currencies of the settings, which may as well be
written out. That both forms come to one request takes more than the settings: their
currencies have to be words, as the long form is cut at all white space. They hold something
and have none at their ends wherever settings come from (`Built.isTidy`), so only white space
inside a currency could tell the forms apart.

Key theorems: `Settings.Built.isWord_defaultPair`, `Request.short_form_agrees_with_long`.
-/

namespace CurrencyDesk

open Text (HasInnerBlank IsWord Spaced)

variable {v : LocaleVariables} {settings : Settings}

/-- The currencies of a bare amount are words, unless one has white space inside. -/
theorem Settings.Built.isWord_defaultPair (h : settings.Built v)
    (hinner : ∀ code ∈ [settings.localCurrency, settings.globalCurrency],
      ¬HasInnerBlank code.toList) :
    IsWord settings.defaultPair.1.toList ∧ IsWord settings.defaultPair.2.toList := by
  simp only [List.mem_cons, List.not_mem_nil, or_false, forall_eq_or_imp, forall_eq] at hinner
  have hlocal := h.isTidy.1.isWord hinner.1
  have hglobal := h.isTidy.2.isWord hinner.2
  rcases hdirection : settings.direction with _ | _
  · simpa only [Settings.defaultPair, hdirection] using ⟨hlocal, hglobal⟩
  · simpa only [Settings.defaultPair, hdirection] using ⟨hglobal, hlocal⟩

namespace Request

theorem ofWords?_defaultPair (settings : Settings) (word connective : List Char) :
    ofWords? settings [word, settings.defaultPair.1.toList, connective,
      settings.defaultPair.2.toList] = ofWords? settings [word] := by
  simp only [ofWords?, String.ofList_toList]

/-- **The short and the long form of a query agree.** In every place and whatever settings are
made of, a word alone and the same word with the currencies of the settings behind it come to
one request or to none, however much white space there is; and a desk takes and serves both
forms alike. -/
theorem short_form_agrees_with_long (hbuilt : settings.Built v)
    (hinner : ∀ code ∈ [settings.localCurrency, settings.globalCurrency],
      ¬HasInnerBlank code.toList)
    {word connective short long : List Char} (hword : IsWord word) (hconnective : IsWord connective)
    (hshort : Spaced [word] short)
    (hlong : Spaced [word, settings.defaultPair.1.toList, connective,
      settings.defaultPair.2.toList] long) :
    parse? settings (String.ofList short) = parse? settings (String.ofList long) ∧
    ∀ {σ : Type} (source : RateSource σ) (d : Desk) (state : σ), d.settings = settings →
      d.step (.call (.query (String.ofList short))) = d.step (.call (.query (String.ofList long))) ∧
      d.serve source state [.query (String.ofList short)] =
        d.serve source state [.query (String.ofList long)] := by
  obtain ⟨hsource, htarget⟩ := hbuilt.isWord_defaultPair hinner
  have hshortWords : Text.words short = [word] := hshort.words_eq (by simpa using hword)
  have hlongWords : Text.words long = [word, settings.defaultPair.1.toList, connective,
      settings.defaultPair.2.toList] :=
    hlong.words_eq (by simp [hword, hconnective, hsource, htarget])
  have hparse : parse? settings (String.ofList short) = parse? settings (String.ofList long) := by
    rw [parse?, parse?, String.toList_ofList, String.toList_ofList, hshortWords, hlongWords,
      ofWords?_defaultPair]
  refine ⟨hparse, fun source d state hd => ?_⟩
  have herrand : (Call.query (String.ofList short)).errand? d.settings =
      (Call.query (String.ofList long)).errand? d.settings := by
    rw [Call.errand?, Call.errand?, hd, hparse]
  exact ⟨d.step_call_congr herrand, Desk.serve_congr herrand source state⟩

/-- A blank local currency in Austria, with an ideographic space and a no-break space. -/
theorem short_form_in_austria :
    let v : LocaleVariables := { language := some (Text.Utf8.encode "de_AT.UTF-8".toList) }
    let settings := Settings.ofOptions v.currency
      [("QuickConversionDirection", " 1"), ("QuickConversionLocalCurrency", "\t")]
    settings.Built v ∧ settings.defaultPair = ("USD", "EUR") ∧
    (∀ code ∈ [settings.localCurrency, settings.globalCurrency], ¬HasInnerBlank code.toList) ∧
    Spaced ["-4e2".toList] "\u3000-4e2\n".toList ∧
    Spaced ["-4e2".toList, settings.defaultPair.1.toList, "in".toList,
      settings.defaultPair.2.toList] "-4e2\u00a0USD  in\tEUR".toList ∧
    parse? settings (String.ofList "\u3000-4e2\n".toList) =
      parse? settings (String.ofList "-4e2\u00a0USD  in\tEUR".toList) := by
  intro v settings
  have hsettings : settings = ⟨.globalToLocal, "EUR", "USD"⟩ := by decide +kernel
  have hinner : ∀ code ∈ [settings.localCurrency, settings.globalCurrency],
      ¬HasInnerBlank code.toList := by
    rw [hsettings]
    intro code hcode
    refine IsWord.not_hasInnerBlank ?_
    simp only [List.mem_cons, List.not_mem_nil, or_false] at hcode
    rcases hcode with rfl | rfl <;> decide
  have hshort : Spaced ["-4e2".toList] "\u3000-4e2\n".toList :=
    @Spaced.one ['\u3000'] "-4e2".toList ['\n'] (by decide) (by decide)
  have hlong : Spaced ["-4e2".toList, settings.defaultPair.1.toList, "in".toList,
      settings.defaultPair.2.toList] "-4e2\u00a0USD  in\tEUR".toList := by
    rw [hsettings]
    have htarget : Spaced ["EUR".toList] "EUR".toList :=
      @Spaced.one [] "EUR".toList [] (by decide) (by decide)
    have hconnective := @Spaced.cons [] "in".toList ['\t'] _ _ (by decide) (by decide) (by decide)
      htarget
    have hsource := @Spaced.cons [] "USD".toList [' ', ' '] _ _ (by decide) (by decide) (by decide)
      hconnective
    exact @Spaced.cons [] "-4e2".toList ['\u00a0'] _ _ (by decide) (by decide) (by decide) hsource
  have hbuilt : settings.Built v := .ofOptions _
  exact ⟨hbuilt, by rw [hsettings]; rfl, hinner, hshort, hlong,
    (short_form_agrees_with_long hbuilt hinner (by decide) (by decide) hshort hlong).1⟩

end Request

end CurrencyDesk
