import CurrencyDesk.Currency.Region
import CurrencyDesk.Proofs.Text.Lower
import CurrencyDesk.Proofs.Text.Utf8
import Mathlib.Data.List.TakeWhile
/-!
# What the regional currency depends on

Of the locale variables the first one counts that is set to well-formed bytes, at least one; what
the others hold does not matter, even where this one names no known region (`currency_of_decides`).
Of its text only the region counts. That is what stands behind the first separator, up to the
next separator or the end of the name (`localeRegion?_eq_some_iff`), whatever the letter case. So a
locale may be varied in many ways without a change of its currency (`LocaleVariant`): none of them
reaches the region.

Key definitions: `NamesRegion`, `LocaleVariant`, `LocaleVariables.Decides`.
Key theorems: `localeRegion?_append_cons`, `localeRegion?_eq_some_iff`,
`LocaleVariant.localeRegion?_eq`, `LocaleVariables.locale?_eq_some_iff`,
`LocaleVariables.currency_by_region_of_deciding`.
-/

namespace CurrencyDesk

open Text (splitWhen upper upperForm SameLetters)

variable {language locale locale' region rest tail : List Char} {c : Char}

/-! ### The region of a locale -/

/-- Whether a character ends a part of a locale: as a separator, or with the name. -/
def endsSubtag (c : Char) : Bool :=
  separatesSubtags c || endsLocaleName c

/-- A text can be a part of the name of a locale: it has no separators, points and at-signs. -/
def IsSubtag (s : List Char) : Prop :=
  ∀ c ∈ s, endsSubtag c = false

/-- A text begins with the end of a part of a locale, or is empty. -/
def AtSubtagEnd (s : List Char) : Prop :=
  ∀ c ∈ s.head?, endsSubtag c = true

/-- A locale names a region: behind the first separator of its name, up to the next one or the
end of the name. -/
inductive NamesRegion : List Char → List Char → Prop
  | intro {language region rest : List Char} {separator : Char} :
      IsSubtag language → separatesSubtags separator = true → IsSubtag region → AtSubtagEnd rest →
        NamesRegion (language ++ separator :: (region ++ rest)) region

theorem endsLocaleName_of_separatesSubtags (h : separatesSubtags c = true) :
    endsLocaleName c = false := by
  simp only [separatesSubtags, Bool.or_eq_true, decide_eq_true_eq] at h
  rcases h with rfl | rfl <;> rfl

theorem exists_subtag (s : List Char) :
    ∃ subtag rest, s = subtag ++ rest ∧ IsSubtag subtag ∧ AtSubtagEnd rest := by
  refine ⟨s.takeWhile (!endsSubtag ·), s.dropWhile (!endsSubtag ·), ?_, fun c hc => ?_,
    fun c hc => ?_⟩
  · rw [List.takeWhile_append_dropWhile]
  · simpa using List.mem_takeWhile_imp hc
  · simpa using Text.eq_false_of_mem_head?_dropWhile hc

theorem IsSubtag.takeWhile_append (hregion : IsSubtag region) (hrest : AtSubtagEnd rest) :
    (region ++ rest).takeWhile (!endsSubtag ·) = region := by
  rw [List.takeWhile_append_of_pos fun c hc => by simp [hregion c hc]]
  cases rest with
  | nil => simp
  | cons c rest => simp [hrest c rfl]

theorem IsSubtag.separatesSubtags_eq (h : IsSubtag language) (hc : c ∈ language) :
    separatesSubtags c = false :=
  (Bool.or_eq_false_iff.mp (h c hc)).1

theorem IsSubtag.endsLocaleName_eq (h : IsSubtag language) (hc : c ∈ language) :
    endsLocaleName c = false :=
  (Bool.or_eq_false_iff.mp (h c hc)).2

theorem localeRegion?_append_cons (hlanguage : IsSubtag language) (hc : separatesSubtags c = true)
    (tail : List Char) :
    localeRegion? (language ++ c :: tail) = some (upper (tail.takeWhile (!endsSubtag ·))) := by
  have hname : (language ++ c :: tail).takeWhile (!endsLocaleName ·) =
      language ++ c :: tail.takeWhile (!endsLocaleName ·) := by
    rw [List.takeWhile_append_of_pos fun a ha => by simp [hlanguage.endsLocaleName_eq ha],
      List.takeWhile_cons_of_pos (by simp [endsLocaleName_of_separatesSubtags hc])]
  have hpieces : splitWhen separatesSubtags (language ++ c :: tail.takeWhile (!endsLocaleName ·)) =
      language :: splitWhen separatesSubtags (tail.takeWhile (!endsLocaleName ·)) := by
    rw [Text.splitWhen_append_cons hc,
      Text.splitWhen_eq_singleton fun a ha => hlanguage.separatesSubtags_eq ha,
      List.singleton_append]
  have hregion := Text.headD_splitWhen separatesSubtags (tail.takeWhile (!endsLocaleName ·))
  obtain ⟨region, pieces, hsecond⟩ := List.exists_cons_of_ne_nil
    (Text.splitWhen_ne_nil separatesSubtags (tail.takeWhile (!endsLocaleName ·)))
  rw [hsecond, List.headD_cons, List.takeWhile_takeWhile] at hregion
  rw [localeRegion?, Text.headD_splitWhen, hname, hpieces, hsecond, hregion]
  simp [endsSubtag]

theorem localeRegion?_of_no_separator (hlanguage : IsSubtag language)
    (hrest : ∀ a ∈ rest.head?, endsLocaleName a = true) :
    localeRegion? (language ++ rest) = none := by
  have hname : (language ++ rest).takeWhile (!endsLocaleName ·) = language := by
    rw [List.takeWhile_append_of_pos fun a ha => by simp [hlanguage.endsLocaleName_eq ha]]
    cases rest with
    | nil => simp
    | cons a rest => simp [hrest a rfl]
  rw [localeRegion?, Text.headD_splitWhen, hname,
    Text.splitWhen_eq_singleton fun a ha => hlanguage.separatesSubtags_eq ha]
  rfl

/-- A locale has its first part in front of a separator, or in front of the end of the name. -/
theorem exists_language (locale : List Char) : ∃ language rest, locale = language ++ rest ∧
    IsSubtag language ∧ ((∀ a ∈ rest.head?, endsLocaleName a = true) ∨
      ∃ c tail, rest = c :: tail ∧ separatesSubtags c = true) := by
  obtain ⟨language, rest, hlocale, hlanguage, hrest⟩ := exists_subtag locale
  refine ⟨language, rest, hlocale, hlanguage, ?_⟩
  cases rest with
  | nil => exact .inl (by simp)
  | cons c tail =>
    rcases Bool.or_eq_true_iff.mp (hrest c rfl) with hc | hc
    · exact .inr ⟨c, tail, rfl, hc⟩
    · exact .inl (by simpa using hc)

/-- The region of a locale is the one that it names, in upper case. -/
theorem localeRegion?_eq_some_iff {s : List Char} :
    localeRegion? locale = some s ↔ ∃ region, NamesRegion locale region ∧ s = upper region := by
  constructor
  · intro h
    obtain ⟨language, rest, rfl, hlanguage, hend | ⟨c, tail, rfl, hc⟩⟩ := exists_language locale
    · rw [localeRegion?_of_no_separator hlanguage hend] at h
      cases h
    · obtain ⟨region, rest, rfl, hregion, hrest⟩ := exists_subtag tail
      rw [localeRegion?_append_cons hlanguage hc, hregion.takeWhile_append hrest] at h
      exact ⟨region, .intro hlanguage hc hregion hrest, (Option.some.inj h).symm⟩
  · rintro ⟨region, ⟨hlanguage, hc, hregion, hrest⟩, rfl⟩
    rw [localeRegion?_append_cons hlanguage hc, hregion.takeWhile_append hrest]

theorem localeCurrency?_eq_some_iff {code : String} :
    localeCurrency? locale = some code ↔ ∃ region, NamesRegion locale region ∧
      regionCurrencies.lookup (String.ofList (upper region)) = some code := by
  rw [localeCurrency?, Option.bind_eq_some_iff]
  constructor
  · rintro ⟨s, hs, hcode⟩
    obtain ⟨region, hregion, rfl⟩ := localeRegion?_eq_some_iff.mp hs
    exact ⟨region, hregion, hcode⟩
  · rintro ⟨region, hregion, hcode⟩
    exact ⟨upper region, localeRegion?_eq_some_iff.mpr ⟨region, hregion, rfl⟩, hcode⟩

-- the second part counts, even when it is empty
example : (localeCurrency? "en__US".toList, localeCurrency? "en_uS_DE".toList) =
    (none, some "USD") := by
  decide +kernel

/-! ### Variants of a locale -/

/-- A separator as a hyphen, and any other character as it is. -/
def hyphenated (c : Char) : Char :=
  if separatesSubtags c then '-' else c

/-- Texts differ in the choice between underscores and hyphens alone. -/
def SameSubtags (s t : List Char) : Prop :=
  s.map hyphenated = t.map hyphenated

/-- A locale is varied behind its name, in its letters, in its separators, in front of its region,
or behind it. -/
inductive LocaleVariant : List Char → List Char → Prop
  | modifier {locale modifier : List Char} {c : Char} : endsLocaleName c = true →
      LocaleVariant locale (locale ++ c :: modifier)
  | letters {locale locale' : List Char} : SameLetters locale locale' → LocaleVariant locale locale'
  | separators {locale locale' : List Char} : SameSubtags locale locale' →
      LocaleVariant locale locale'
  | language {language language' tail : List Char} {c : Char} : IsSubtag language →
      IsSubtag language' → separatesSubtags c = true →
        LocaleVariant (language ++ c :: tail) (language' ++ c :: tail)
  | subtags {locale more : List Char} {c : Char} : (∃ a ∈ locale, separatesSubtags a = true) →
      separatesSubtags c = true → LocaleVariant locale (locale ++ c :: more)

theorem localeRegion?_modifier (hc : endsLocaleName c = true) (locale modifier : List Char) :
    localeRegion? (locale ++ c :: modifier) = localeRegion? locale := by
  rw [localeRegion?, localeRegion?, Text.headD_splitWhen, Text.headD_splitWhen,
    Text.takeWhile_append_cons (by simp [hc])]

/-- What follows a second part stands behind the region. -/
theorem localeRegion?_subtags (hname : ∀ a ∈ locale, endsLocaleName a = false)
    (hsecond : ∃ a ∈ locale, separatesSubtags a = true) (hc : separatesSubtags c = true)
    (more : List Char) : localeRegion? (locale ++ c :: more) = localeRegion? locale := by
  obtain ⟨language, rest, rfl, hlanguage, hend | ⟨b, tail, rfl, hb⟩⟩ := exists_language locale
  · -- a name that is one part has no separator
    obtain ⟨a, ha, hseparates⟩ := hsecond
    cases rest with
    | nil =>
      rw [List.append_nil] at ha
      rw [hlanguage.separatesSubtags_eq ha] at hseparates
      cases hseparates
    | cons b rest =>
      have hb := hname b (List.mem_append_right language List.mem_cons_self)
      rw [hend b rfl] at hb
      cases hb
  · rw [List.append_assoc, List.cons_append, localeRegion?_append_cons hlanguage hb,
      localeRegion?_append_cons hlanguage hb,
      Text.takeWhile_append_cons (by simp [endsSubtag, hc])]

/-- To map the characters of a locale keeps its region, if separators, points and at-signs stay what
they are and all other characters keep their upper case. -/
theorem localeRegion?_map {f : Char → Char}
    (hseparates : ∀ c, separatesSubtags (f c) = separatesSubtags c)
    (hends : ∀ c, endsLocaleName (f c) = endsLocaleName c)
    (hupper : ∀ c, endsSubtag c = false → upperForm (f c) = upperForm c) (locale : List Char) :
    localeRegion? (locale.map f) = localeRegion? locale := by
  have hsubtag (c : Char) : endsSubtag (f c) = endsSubtag c := by
    rw [endsSubtag, hseparates, hends, endsSubtag]
  have hmap {s : List Char} (h : IsSubtag s) : IsSubtag (s.map f) := by
    intro c hc
    obtain ⟨a, ha, rfl⟩ := List.mem_map.mp hc
    rw [hsubtag, h a ha]
  have hhead {p : Char → Bool} (hp : ∀ c, p (f c) = p c) {s : List Char}
      (h : ∀ a ∈ s.head?, p a = true) : ∀ a ∈ (s.map f).head?, p a = true := by
    rw [List.head?_map]
    intro a ha
    obtain ⟨b, hb, rfl⟩ := Option.map_eq_some_iff.mp ha
    rw [hp, h b hb]
  obtain ⟨language, rest, rfl, hlanguage, hend | ⟨c, tail, rfl, hc⟩⟩ := exists_language locale
  · rw [List.map_append, localeRegion?_of_no_separator (hmap hlanguage) (hhead hends hend),
      localeRegion?_of_no_separator hlanguage hend]
  · obtain ⟨region, rest, rfl, hregion, hrest⟩ := exists_subtag tail
    have hform : upper (region.map f) = upper region := by
      rw [upper, upper, List.flatMap_map]
      exact List.flatMap_congr fun a ha => hupper a (hregion a ha)
    rw [List.map_append, List.map_cons, List.map_append,
      localeRegion?_append_cons (hmap hlanguage) (by rw [hseparates, hc]),
      localeRegion?_append_cons hlanguage hc,
      (hmap hregion).takeWhile_append (hhead hsubtag hrest), hregion.takeWhile_append hrest, hform]

/-- What a capital letter and its small letter have in common. -/
theorem toLower_of_mem_capitals : ∀ c ∈ Text.capitals, upperForm c.toLower = upperForm c ∧
    separatesSubtags c.toLower = separatesSubtags c ∧
    endsLocaleName c.toLower = endsLocaleName c :=
  List.all_iff_forall_prop.mp (by decide +kernel)

theorem localeRegion?_map_toLower (locale : List Char) :
    localeRegion? (locale.map Char.toLower) = localeRegion? locale := by
  have hletter (c : Char) : upperForm c.toLower = upperForm c ∧
      separatesSubtags c.toLower = separatesSubtags c ∧
      endsLocaleName c.toLower = endsLocaleName c := by
    rcases Text.toLower_eq_or_mem_capitals c with h | h
    · rw [h]
      exact ⟨rfl, rfl, rfl⟩
    · exact toLower_of_mem_capitals c h
  exact localeRegion?_map (fun c => (hletter c).2.1) (fun c => (hletter c).2.2)
    (fun c _ => (hletter c).1) locale

theorem localeRegion?_map_hyphenated (locale : List Char) :
    localeRegion? (locale.map hyphenated) = localeRegion? locale := by
  refine localeRegion?_map (fun c => ?_) (fun c => ?_) (fun c hc => ?_) locale
  · unfold hyphenated
    split_ifs with h
    · rw [h]
      rfl
    · rfl
  · unfold hyphenated
    split_ifs with h
    · rw [endsLocaleName_of_separatesSubtags h]
      rfl
    · rfl
  · obtain ⟨h, -⟩ := Bool.or_eq_false_iff.mp hc
    rw [hyphenated, h, if_neg Bool.false_ne_true]

/-- No variant of a locale without points and at-signs reaches the region. -/
theorem LocaleVariant.localeRegion?_eq (hname : ∀ a ∈ locale, endsLocaleName a = false)
    (h : LocaleVariant locale locale') : localeRegion? locale' = localeRegion? locale := by
  cases h with
  | modifier hc => exact localeRegion?_modifier hc locale _
  | letters h => rw [← localeRegion?_map_toLower locale', ← h, localeRegion?_map_toLower]
  | separators h => rw [← localeRegion?_map_hyphenated locale', ← h, localeRegion?_map_hyphenated]
  | language hlanguage hlanguage' hc =>
    rw [localeRegion?_append_cons hlanguage' hc, localeRegion?_append_cons hlanguage hc]
  | subtags hsecond hc => exact localeRegion?_subtags hname hsecond hc _

theorem LocaleVariant.localeCurrency?_eq (hname : ∀ a ∈ locale, endsLocaleName a = false)
    (h : LocaleVariant locale locale') : localeCurrency? locale' = localeCurrency? locale := by
  rw [localeCurrency?, localeCurrency?, h.localeRegion?_eq hname]

/-! ### The variable that decides -/

namespace LocaleVariables

variable {v v' : LocaleVariables} {value : Option (List UInt8)}

/-- A variable is set to the bytes of a text that is not empty. -/
def Holds (value : Option (List UInt8)) (locale : List Char) : Prop :=
  locale ≠ [] ∧ value = some (Text.Utf8.encode locale)

/-- The variables in their order of precedence. -/
def inOrder (v : LocaleVariables) : List (Option (List UInt8)) :=
  [v.all, v.monetary, v.language]

/-- The first variable that holds a text holds this one. -/
def Decides (v : LocaleVariables) (locale : List Char) : Prop :=
  ∃ before value after, v.inOrder = before ++ value :: after ∧ Holds value locale ∧
    ∀ earlier ∈ before, ∀ text, ¬Holds earlier text

theorem text?_eq_some_iff : text? value = some locale ↔ Holds value locale := by
  rw [text?, Option.filter_eq_some_iff, Option.bind_eq_some_iff]
  constructor
  · rintro ⟨⟨bytes, rfl, hbytes⟩, hne⟩
    exact ⟨by simpa using hne, by rw [Text.Utf8.decode?_eq_some_iff.mp hbytes]⟩
  · rintro ⟨hne, rfl⟩
    exact ⟨⟨_, rfl, Text.Utf8.decode?_eq_some_iff.mpr rfl⟩, by simpa using hne⟩

theorem text?_eq_none_iff : text? value = none ↔ ∀ text, ¬Holds value text := by
  simp only [Option.eq_none_iff_forall_ne_some, ne_eq, text?_eq_some_iff]

theorem locale?_eq_some_iff : v.locale? = some locale ↔ v.Decides locale := by
  rw [show v.locale? = v.inOrder.findSome? text? from rfl, List.findSome?_eq_some_iff, Decides]
  simp only [text?_eq_some_iff, text?_eq_none_iff]

theorem locale?_eq_none_iff : v.locale? = none ↔ ∀ locale, ¬v.Decides locale := by
  simp only [Option.eq_none_iff_forall_ne_some, ne_eq, locale?_eq_some_iff]

/-- Variables behind one that holds a text do not matter. -/
theorem locale?_congr {before after after' : List (Option (List UInt8))}
    (h : v.inOrder = before ++ value :: after) (h' : v'.inOrder = before ++ value :: after')
    (hholds : Holds value locale) : v'.locale? = v.locale? := by
  have hfound (rest : List (Option (List UInt8))) :
      (before ++ value :: rest).findSome? text? = (before.findSome? text?).or (some locale) := by
    rw [List.findSome?_append, List.findSome?_cons, text?_eq_some_iff.mpr hholds]
  calc v'.locale? = v'.inOrder.findSome? text? := rfl
    _ = v.inOrder.findSome? text? := by rw [h', h, hfound, hfound]
    _ = v.locale? := rfl

theorem currency_of_decides (h : v.Decides locale) :
    v.currency = (localeCurrency? locale).getD "USD" := by
  rw [currency, locale?_eq_some_iff.mpr h, Option.bind_some]
  rfl

/-- **The regional currency depends only on the region of the deciding variable.** The first
variable that is set to well-formed bytes, at least one, decides: by the region that its text
names, and for US dollars where that is none with a known currency. What stands in the variables
behind it does not matter. And a locale without points and at-signs may be varied behind its name,
in its letters and separators, in front of its region and behind it. -/
theorem currency_by_region_of_deciding (v v' : LocaleVariables) :
    (∀ locale, v.Decides locale → v.currency = (localeCurrency? locale).getD "USD") ∧
    ((∀ locale, ¬v.Decides locale) → v.currency = "USD") ∧
    (∀ before value after after' locale, v.inOrder = before ++ value :: after →
      v'.inOrder = before ++ value :: after' → Holds value locale → v'.currency = v.currency) ∧
    (∀ locale code, localeCurrency? locale = some code ↔ ∃ region, NamesRegion locale region ∧
      regionCurrencies.lookup (String.ofList (upper region)) = some code) ∧
    ∀ locale locale', (∀ c ∈ locale, endsLocaleName c = false) → LocaleVariant locale locale' →
      localeCurrency? locale' = localeCurrency? locale ∧
        (v.Decides locale → v'.Decides locale' → v'.currency = v.currency) := by
  refine ⟨fun locale h => currency_of_decides h, fun h => ?_, ?_,
    fun locale code => localeCurrency?_eq_some_iff, fun locale locale' hname h => ?_⟩
  · rw [currency, locale?_eq_none_iff.mpr h]
    rfl
  · intro before value after after' locale hv hv' hholds
    rw [currency, locale?_congr hv hv' hholds, currency]
  · have hcurrency := h.localeCurrency?_eq hname
    refine ⟨hcurrency, fun hv hv' => ?_⟩
    rw [currency_of_decides hv, currency_of_decides hv', hcurrency]

/-- A variable that is no text is passed over, and a modifier with separators of its own does not
name a region. -/
theorem currency_by_region_in_austria :
    let v : LocaleVariables :=
      { all := some [0xFF], monetary := some (Text.Utf8.encode "de_at".toList),
        language := some (Text.Utf8.encode "en_US".toList) }
    let v' : LocaleVariables :=
      { all := some (Text.Utf8.encode "de_at@x_US.UTF-8".toList), monetary := v.language }
    v.Decides "de_at".toList ∧ v'.Decides "de_at@x_US.UTF-8".toList ∧
    LocaleVariant "de_at".toList "de_at@x_US.UTF-8".toList ∧
    (∀ locale, ¬({} : LocaleVariables).Decides locale) ∧
    Holds v.monetary "de_at".toList ∧
    v.currency = "EUR" ∧ v'.currency = "EUR" ∧ { v with language := none }.currency = "EUR" ∧
    ({} : LocaleVariables).currency = "USD" := by
  intro v v'
  have hholds : Holds v.monetary "de_at".toList := ⟨by decide, rfl⟩
  have hv : v.Decides "de_at".toList := by
    refine ⟨[v.all], v.monetary, [v.language], rfl, hholds, fun earlier hearlier => ?_⟩
    rw [List.mem_singleton.mp hearlier, ← text?_eq_none_iff]
    decide +kernel
  have hv' : v'.Decides "de_at@x_US.UTF-8".toList :=
    ⟨[], v'.all, [v'.monetary, none], rfl, ⟨by decide, rfl⟩, by simp⟩
  have hvariant : LocaleVariant "de_at".toList "de_at@x_US.UTF-8".toList :=
    @LocaleVariant.modifier "de_at".toList "x_US.UTF-8".toList '@' rfl
  have hnone : ∀ locale, ¬({} : LocaleVariables).Decides locale := locale?_eq_none_iff.mp rfl
  obtain ⟨hdecides, -, -, -, hvaried⟩ := currency_by_region_of_deciding v v'
  obtain ⟨-, husd, -⟩ := currency_by_region_of_deciding {} v'
  have hcurrency : v.currency = "EUR" := by
    rw [hdecides "de_at".toList hv]
    decide +kernel
  have hplain : "de_at".toList.all (!endsLocaleName ·) = true := by decide
  have hname (c : Char) (hc : c ∈ "de_at".toList) : endsLocaleName c = false := by
    simpa using List.all_eq_true.mp hplain c hc
  obtain ⟨-, hsame⟩ := hvaried "de_at".toList "de_at@x_US.UTF-8".toList hname hvariant
  obtain ⟨-, -, hlater, -⟩ := currency_by_region_of_deciding v { v with language := none }
  have hunset := hlater [v.all] v.monetary [v.language] [none] "de_at".toList rfl rfl hholds
  exact ⟨hv, hv', hvariant, hnone, hholds, hcurrency, (hsame hv hv').trans hcurrency,
    hunset.trans hcurrency, husd hnone⟩

end LocaleVariables

end CurrencyDesk
