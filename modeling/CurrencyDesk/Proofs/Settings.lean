import CurrencyDesk.Config.Basic
import CurrencyDesk.Proofs.Text.Trim
/-!
# Where settings come from, and what they hold

Settings are made in a place with a regional currency: of a direction and two currencies, of
a configuration, or of a host's named options. A currency that is given and not blank counts
without the white space at its ends, and otherwise there is one to fall back on, which has
none (`comesTo_make`). So both currencies hold something, and no white space at their ends,
wherever the settings come from (`Built.isTidy`).

Options are taken one after the other. What is kept is at every moment what the options so far
have said last about each of the known names (`Reflects`); whether a currency is blank is only
asked at the end, so a blank value that comes last is not held against one before it. It
follows that only the order among the options of one known name matters (`ofOptions_congr`).

Key definitions: `Settings.Built`, `Settings.ComesTo`, `Settings.LastValue`, `Settings.Reflects`.
Key theorems: `comesTo_make`, `Built.isTidy`, `Reflects.take`, `reflects_foldl`,
`ofOptions_congr`, `options_count_by_last_values`.
-/

namespace CurrencyDesk

open Text (AllBlank IsTidy trim)

/-! ### The currency of a place -/

/-- The currencies of regions hold something, and no white space at their ends. -/
theorem isTidy_of_mem_regionCurrencies : ∀ p ∈ regionCurrencies, IsTidy p.2.toList := by
  decide

theorem LocaleVariables.isTidy_currency (v : LocaleVariables) : IsTidy v.currency.toList := by
  rcases h : v.locale?.bind localeCurrency? with _ | code
  · rw [LocaleVariables.currency, h, Option.getD_none]
    decide
  · rw [LocaleVariables.currency, h, Option.getD_some]
    obtain ⟨locale, -, hlocale⟩ := Option.bind_eq_some_iff.mp h
    obtain ⟨region, -, hregion⟩ := Option.bind_eq_some_iff.mp hlocale
    obtain ⟨before, after, hmem, -⟩ := List.lookup_eq_some_iff.mp hregion
    exact isTidy_of_mem_regionCurrencies _ (hmem ▸ List.mem_append_right _ List.mem_cons_self)

namespace Settings

/-! ### Currencies that are given or fallen back on -/

/-- The currency that a value comes to: that which is given without the white space around it,
and the one to fall back on if it is missing or blank. -/
inductive ComesTo (fallback : String) : Option String → String → Prop
  | missing : ComesTo fallback none fallback
  | blank {value : String} : AllBlank value.toList → ComesTo fallback (some value) fallback
  | given {value currency : String} {before after : List Char} :
      value.toList = before ++ currency.toList ++ after → AllBlank before → AllBlank after →
      IsTidy currency.toList → ComesTo fallback (some value) currency

theorem comesTo_nonBlank? (fallback : String) (value? : Option String) :
    ComesTo fallback value? ((nonBlank? value?).getD fallback) := by
  rcases value? with _ | value
  · exact .missing
  · by_cases h : trim value.toList = []
    · have hnone : nonBlank? (some value) = none := by simp [nonBlank?, h]
      rw [hnone]
      exact .blank (Text.trim_eq_nil_iff.mp h)
    · have hsome : nonBlank? (some value) = some (String.ofList (trim value.toList)) := by
        simp [nonBlank?, h]
      rw [hsome, Option.getD_some]
      obtain ⟨before, after, hsplit, hbefore, hafter⟩ := Text.trim_split value.toList
      rw [← String.toList_ofList (l := trim value.toList)] at hsplit
      refine .given hsplit hbefore hafter ?_
      rw [String.toList_ofList]
      exact Text.isTidy_trim h

theorem ComesTo.isTidy {fallback currency : String} {value? : Option String}
    (h : ComesTo fallback value? currency) (hfallback : IsTidy fallback.toList) :
    IsTidy currency.toList := by
  cases h with
  | missing => exact hfallback
  | blank _ => exact hfallback
  | given _ _ _ htidy => exact htidy

/-- The local currency falls back on the regional one, and the global currency on US dollars. -/
theorem comesTo_make (regional : String) (direction : Direction) (local? global? : Option String) :
    ComesTo regional local? (make regional direction local? global?).localCurrency ∧
      ComesTo globalCurrencyDefault global?
        (make regional direction local? global?).globalCurrency :=
  ⟨comesTo_nonBlank? .., comesTo_nonBlank? ..⟩

/-! ### Settings of a place -/

/-- Settings have been made in a place, in one of the ways there are. -/
inductive Built (v : LocaleVariables) : Settings → Prop
  | make (direction : Direction) (local? global? : Option String) :
      Built v (.make v.currency direction local? global?)
  | ofOptions (options : List (String × String)) : Built v (.ofOptions v.currency options)
  | ofConfig (config : Config) : Built v (config.settings v.currency)

section

variable {v : LocaleVariables} {settings : Settings}

theorem Built.exists_make (h : settings.Built v) :
    ∃ direction local? global?, settings = .make v.currency direction local? global? := by
  cases h with
  | make direction local? global? => exact ⟨direction, local?, global?, rfl⟩
  | ofOptions options => exact ⟨_, _, _, rfl⟩
  | ofConfig config => exact ⟨_, _, _, rfl⟩

theorem Built.isTidy (h : settings.Built v) :
    IsTidy settings.localCurrency.toList ∧ IsTidy settings.globalCurrency.toList := by
  obtain ⟨direction, local?, global?, rfl⟩ := h.exists_make
  obtain ⟨hlocal, hglobal⟩ := comesTo_make v.currency direction local? global?
  exact ⟨hlocal.isTidy v.isTidy_currency, hglobal.isTidy (by decide)⟩

end

/-! ### The last value of a name -/

/-- The last value that options give for a name, if they give one. -/
inductive LastValue (options : List (String × String)) (name : String) : Option String → Prop
  | absent : (∀ option ∈ options, option.1 ≠ name) → LastValue options name none
  | last {before after : List (String × String)} {value : String} :
      options = before ++ (name, value) :: after → (∀ option ∈ after, option.1 ≠ name) →
      LastValue options name (some value)

/-- The options with a name. -/
def named (name : String) (options : List (String × String)) : List (String × String) :=
  options.filter (·.1 = name)

section

variable {options options' : List (String × String)} {name : String} {value? other? : Option String}

theorem LastValue.append_self (options : List (String × String)) (name value : String) :
    LastValue (options ++ [(name, value)]) name (some value) :=
  .last rfl (by simp)

theorem LastValue.append_of_ne (h : LastValue options name value?) {other : String}
    (hne : other ≠ name) (value : String) :
    LastValue (options ++ [(other, value)]) name value? := by
  cases h with
  | absent habsent =>
    refine .absent (List.forall_mem_append.mpr ⟨habsent, ?_⟩)
    simpa using hne
  | @last before after last heq hafter =>
    have hlast : options ++ [(other, value)] =
        before ++ (name, last) :: (after ++ [(other, value)]) := by simp [heq]
    refine .last hlast (List.forall_mem_append.mpr ⟨hafter, ?_⟩)
    simpa using hne

theorem LastValue.eq_getLast? (h : LastValue options name value?) :
    value? = (named name options).getLast?.map (·.2) := by
  have hnone {rest : List (String × String)} (hrest : ∀ option ∈ rest, option.1 ≠ name) :
      named name rest = [] := by
    simpa [named] using hrest
  cases h with
  | absent habsent => rw [hnone habsent, List.getLast?_nil, Option.map_none]
  | @last before after value heq hafter =>
    have hnamed : named name options = named name before ++ [(name, value)] := by
      rw [heq, named, List.filter_append, List.filter_cons_of_pos (by simp)]
      exact congrArg _ (congrArg _ (hnone hafter))
    rw [hnamed, List.getLast?_concat, Option.map_some]

theorem LastValue.unique (h : LastValue options name value?) (h' : LastValue options' name other?)
    (heq : named name options = named name options') : value? = other? := by
  rw [h.eq_getLast?, h'.eq_getLast?, heq]

end

/-! ### Options, one after the other -/

/-- What is kept of options is what they have said last about each known name. -/
structure Reflects (options : List (String × String)) (c : Choices) : Prop where
  direction : ∃ choice?, LastValue options directionOption choice? ∧
    c.direction = (choice?.map Direction.ofChoice).getD .localToGlobal
  localCurrency : LastValue options localCurrencyOption c.localCurrency
  globalCurrency : LastValue options globalCurrencyOption c.globalCurrency

variable {options options' : List (String × String)} {c c' : Choices}

theorem reflects_nil : Reflects [] {} where
  direction := ⟨none, .absent (by simp), rfl⟩
  localCurrency := .absent (by simp)
  globalCurrency := .absent (by simp)

theorem take_direction (c : Choices) (value : String) :
    c.take (directionOption, value) = { c with direction := .ofChoice value } := rfl

theorem take_localCurrency (c : Choices) (value : String) :
    c.take (localCurrencyOption, value) = { c with localCurrency := some value } := rfl

theorem take_globalCurrency (c : Choices) (value : String) :
    c.take (globalCurrencyOption, value) = { c with globalCurrency := some value } := rfl

/-- The names of options that are known. -/
def knownOptions : List String :=
  [directionOption, localCurrencyOption, globalCurrencyOption]

theorem take_of_unknown (c : Choices) {name : String} (h : name ∉ knownOptions) (value : String) :
    c.take (name, value) = c := by
  simp only [knownOptions, List.mem_cons, List.not_mem_nil, or_false, not_or] at h
  simp only [Choices.take, if_neg h.1, if_neg h.2.1, if_neg h.2.2]

theorem Reflects.take (h : Reflects options c) (option : String × String) :
    Reflects (options ++ [option]) (c.take option) := by
  obtain ⟨choice?, hchoice, hdirection⟩ := h.direction
  obtain ⟨name, value⟩ := option
  by_cases hknown : name ∈ knownOptions
  · simp only [knownOptions, List.mem_cons, List.not_mem_nil, or_false] at hknown
    rcases hknown with rfl | rfl | rfl
    · rw [take_direction]
      exact ⟨⟨some value, .append_self .., rfl⟩, h.localCurrency.append_of_ne (by decide) value,
        h.globalCurrency.append_of_ne (by decide) value⟩
    · rw [take_localCurrency]
      exact ⟨⟨choice?, hchoice.append_of_ne (by decide) value, hdirection⟩, .append_self ..,
        h.globalCurrency.append_of_ne (by decide) value⟩
    · rw [take_globalCurrency]
      exact ⟨⟨choice?, hchoice.append_of_ne (by decide) value, hdirection⟩,
        h.localCurrency.append_of_ne (by decide) value, .append_self ..⟩
  · rw [take_of_unknown c hknown]
    have hne {known : String} (hmem : known ∈ knownOptions) : name ≠ known := by
      rintro rfl
      exact hknown hmem
    exact ⟨⟨choice?, hchoice.append_of_ne (hne (by decide)) value, hdirection⟩,
      h.localCurrency.append_of_ne (hne (by decide)) value,
      h.globalCurrency.append_of_ne (hne (by decide)) value⟩

/-- What is kept of all options is what they say last about each known name. -/
theorem reflects_foldl (options : List (String × String)) :
    Reflects options (options.foldl Choices.take {}) := by
  induction options using List.reverseRecOn with
  | nil => exact reflects_nil
  | append_singleton options option ih =>
    rw [List.foldl_concat]
    exact ih.take option

theorem Reflects.unique (h : Reflects options c) (h' : Reflects options' c')
    (hnamed : ∀ name ∈ knownOptions, named name options = named name options') : c = c' := by
  obtain ⟨choice?, hchoice, hdirection⟩ := h.direction
  obtain ⟨other?, hother, hdirection'⟩ := h'.direction
  obtain rfl : choice? = other? := hchoice.unique hother (hnamed _ (by decide))
  have hlocal := h.localCurrency.unique h'.localCurrency (hnamed _ (by decide))
  have hglobal := h.globalCurrency.unique h'.globalCurrency (hnamed _ (by decide))
  obtain ⟨direction, localCurrency, globalCurrency⟩ := c
  rw [Choices.mk.injEq]
  exact ⟨hdirection.trans hdirection'.symm, hlocal, hglobal⟩

theorem ofOptions_congr (regional : String)
    (h : ∀ name ∈ knownOptions, named name options = named name options') :
    ofOptions regional options = ofOptions regional options' := by
  rw [ofOptions, ofOptions, (reflects_foldl options).unique (reflects_foldl options') h]

/-- **Options count by their last values.** In every place, options stand for the settings that
are made of the last value of each known name, also where this is blank; a currency that is
then missing or blank is the regional one or US dollars. To reorder them without changing the
order among options of one name, or to add or leave out options of unknown names, changes
nothing; and both currencies hold something, and no white space at their ends. -/
theorem options_count_by_last_values (v : LocaleVariables) (options : List (String × String)) :
    let settings := ofOptions v.currency options
    (∃ choice? local? global?, LastValue options directionOption choice? ∧
      LastValue options localCurrencyOption local? ∧
      LastValue options globalCurrencyOption global? ∧
      settings = make v.currency ((choice?.map Direction.ofChoice).getD .localToGlobal)
        local? global? ∧
      ComesTo v.currency local? settings.localCurrency ∧
      ComesTo globalCurrencyDefault global? settings.globalCurrency) ∧
    (∀ options', (∀ name, named name options' = named name options) →
      ofOptions v.currency options' = settings) ∧
    (∀ before after name value, options = before ++ after → name ∉ knownOptions →
      ofOptions v.currency (before ++ (name, value) :: after) = settings) ∧
    IsTidy settings.localCurrency.toList ∧ IsTidy settings.globalCurrency.toList := by
  intro settings
  refine ⟨?_, fun options' h => ?_, fun before after name value heq hname => ?_, ?_⟩
  · obtain ⟨⟨choice?, hchoice, hdirection⟩, hlocal, hglobal⟩ := reflects_foldl options
    refine ⟨choice?, _, _, hchoice, hlocal, hglobal, ?_, comesTo_make ..⟩
    rw [← hdirection]
    rfl
  · exact ofOptions_congr v.currency fun name _ => h name
  · refine ofOptions_congr v.currency fun known hknown => ?_
    have hne : name ≠ known := by
      rintro rfl
      exact hname hknown
    simp [named, heq, hne]
  · exact Built.isTidy (.ofOptions options)

-- a blank value that comes last is not held against the one before it
example : ofOptions "EUR" [("QuickConversionLocalCurrency", "JPY"), ("Theme", "dark"),
      ("QuickConversionDirection", " 1\n"), ("QuickConversionLocalCurrency", "\t"),
      ("QuickConversionGlobalCurrency", "  gbp ")] =
    ⟨.globalToLocal, "EUR", "gbp"⟩ := by decide +kernel

end Settings

end CurrencyDesk
