import CurrencyDesk.Config.File
import CurrencyDesk.Proofs.Config.Scalar
/-!
# Configurations are merged with the defaults

A document is shown by its outline: the names that its mappings give, in order, and the
scalars of the fields that are known. The outline decides. A configuration is read when no
known section is given twice, no known field is given twice in its section, and the direction
and the durations are such (`Outline.WellFormed`). It then has what is given, and the default
in every field that is not, be its section absent, empty or given in part (`Outline.Loads`).

The order of sections and of fields has no part in this, and neither have names that are not
known: an outline may be rearranged step by step, and what it decides stays (`Rearranged`).

Key definitions: `Entries.given`, `Shows`, `Outline.WellFormed`, `Outline.Loads`, `Rearranged`.
Key theorems: `field?_eq_some_iff`, `ofDocument?_eq_some_iff`, `exists_loads`,
`Rearranged.given`, `config_merges_with_defaults`.
-/

namespace CurrencyDesk.ConfigReading

open Yaml (Node Document)

/-! ### Outlines -/

/-- The entries of a mapping, in order: a name, and what is given for it if it is known. -/
abbrev Entries (β : Type) :=
  List (String × Option β)

/-- What is given for a name. -/
def Entries.given {β : Type} (l : Entries β) (name : String) : List β :=
  l.filterMap fun entry => if entry.1 = name then entry.2 else none

@[simp] theorem Entries.given_nil {β : Type} (name : String) :
    Entries.given ([] : Entries β) name = [] := rfl

theorem Entries.given_cons {β : Type} (entry : String × Option β) (l : Entries β) (name : String) :
    Entries.given (entry :: l) name =
      if entry.1 = name then entry.2.toList ++ Entries.given l name else Entries.given l name := by
  unfold Entries.given
  rw [List.filterMap_cons]
  split_ifs
  · cases entry.2 <;> rfl
  · rfl

/-- The sections of a document with their fields. -/
abbrev Outline :=
  Entries (Entries Scalar)

/-- What the sections of a name give for a field. -/
def Outline.values (o : Outline) (name field : String) : List Scalar :=
  Entries.given (o.given name).flatten field

/-- The sections of a configuration. -/
def knownSections : List String :=
  ["quick_conversion", "provider", "cache"]

/-- The fields that a section has. -/
def knownFields : String → List String
  | "quick_conversion" => ["direction", "local_currency", "global_currency"]
  | "provider" => ["base_url", "timeout_secs"]
  | "cache" => ["validity_secs"]
  | _ => []

section

variable {β : Type} (d : Document) (known : List String) (shows : String → Node → β → Prop)

/-- A node stands for a scalar with a name for its text. -/
def IsNamed (node : Node) (name : String) : Prop :=
  ∃ style tag, d.resolve node = .scalar style tag name.toList

/-- What is given for a known name is shown, and for any other name anything may be given. -/
inductive ShowsEntry : Node × Node → String × Option β → Prop
  | known {key value : Node} {name : String} {v : β} : IsNamed d key name → name ∈ known →
      shows name value v → ShowsEntry (key, value) (name, some v)
  | unknown {key value : Node} {name : String} : IsNamed d key name → name ∉ known →
      ShowsEntry (key, value) (name, none)

/-- The entries of a mapping are shown, one by one; a mapping that is not written has none. -/
inductive ShowsMapping (node : Node) : Entries β → Prop
  | mapping {tag : Option (List Char)} {entries : List (Node × Node)} {l : Entries β} :
      d.resolve node = .mapping tag entries → List.Forall₂ (ShowsEntry d known shows) entries l →
        ShowsMapping node l
  | empty {tag : Option (List Char)} : d.resolve node = .scalar .plain tag [] →
      ShowsMapping node []

end

/-- A section is shown by its fields, of which the known ones have scalars without a tag. -/
def ShowsSection (d : Document) (name : String) : Node → Entries Scalar → Prop :=
  ShowsMapping d (knownFields name) fun _ => Scalar.IsShown d

/-- A document is shown by an outline. -/
inductive Shows (d : Document) : Outline → Prop
  | empty : d.root = none → Shows d []
  | root {node : Node} {o : Outline} : d.root = some node →
      ShowsMapping d knownSections (ShowsSection d) node o → Shows d o

/-! ### What an outline decides -/

/-- What is given for names is given once. -/
def Entries.IsOnce {β : Type} (l : Entries β) (names : List String) : Prop :=
  ∀ name ∈ names, (l.given name).length ≤ 1

/-- Something is what a given value means, or the default if none is given. -/
def Takes {α β : Type} (given : List β) (means : β → α → Prop) (byDefault x : α) : Prop :=
  (∃ v ∈ given, means v x) ∨ given = [] ∧ x = byDefault

@[simp] theorem takes_nil_iff {α β : Type} {means : β → α → Prop} {byDefault x : α} :
    Takes [] means byDefault x ↔ x = byDefault := by
  simp [Takes]

namespace Outline

/-- An outline is that of a configuration. -/
@[mk_iff]
structure WellFormed (o : Outline) : Prop where
  sections_once : o.IsOnce knownSections
  fields_once : ∀ name ∈ knownSections, ∀ fields ∈ o.given name, fields.IsOnce (knownFields name)
  direction : ∀ s ∈ o.values "quick_conversion" "direction", ∃ direction, s.Names direction
  timeout : ∀ s ∈ o.values "provider" "timeout_secs", ∃ n, s.IsDuration n
  validity : ∀ s ∈ o.values "cache" "validity_secs", ∃ n, s.IsDuration n

/-- A configuration has what an outline gives, and the default in every other field. -/
@[mk_iff]
structure Loads (o : Outline) (c : Config) : Prop where
  direction : Takes (o.values "quick_conversion" "direction") Scalar.Names
    ({} : Config).quick.direction c.quick.direction
  localCurrency : Takes (o.values "quick_conversion" "local_currency") (·.optional = ·)
    ({} : Config).quick.localCurrency c.quick.localCurrency
  globalCurrency : Takes (o.values "quick_conversion" "global_currency") (·.optional = ·)
    ({} : Config).quick.globalCurrency c.quick.globalCurrency
  baseUrl : Takes (o.values "provider" "base_url") (·.word = ·)
    ({} : Config).provider.baseUrl c.provider.baseUrl
  timeout : Takes (o.values "provider" "timeout_secs") Scalar.IsDuration
    ({} : Config).provider.timeoutSeconds c.provider.timeoutSeconds
  validity : Takes (o.values "cache" "validity_secs") Scalar.IsDuration
    ({} : Config).cache.validitySeconds c.cache.validitySeconds

end Outline

/-! ### Fields are read -/

section Fields

variable {α β : Type} {d : Document} {known : List String} {shows : String → Node → β → Prop}
  {fields : List (List Char × Node)} {l : Entries β} {name : String}

/-- A field that was read is shown, if its name is known. -/
def ShowsField (known : List String) (shows : String → Node → β → Prop)
    (field : List Char × Node) (entry : String × Option β) : Prop :=
  field.1 = entry.1.toList ∧ (entry.1 ∈ known → ∃ v, entry.2 = some v ∧ shows entry.1 field.2 v)

theorem ShowsEntry.field {key value : Node} {entry : String × Option β}
    (h : ShowsEntry d known shows (key, value) entry) :
    scalarText? d key = some entry.1.toList ∧
      ShowsField known shows (entry.1.toList, value) entry := by
  cases h with
  | known hnamed hname hvalue =>
    obtain ⟨style, tag, hkey⟩ := hnamed
    exact ⟨by rw [scalarText?, hkey], rfl, fun _ => ⟨_, rfl, hvalue⟩⟩
  | unknown hnamed hname =>
    obtain ⟨style, tag, hkey⟩ := hnamed
    exact ⟨by rw [scalarText?, hkey], rfl, fun h => absurd h hname⟩

theorem ShowsMapping.exists_fields? {node : Node} (h : ShowsMapping d known shows node l) :
    ∃ fields, fields? d node = some fields ∧ List.Forall₂ (ShowsField known shows) fields l := by
  cases h with
  | empty h => exact ⟨[], by rw [fields?, h], .nil⟩
  | mapping h hentries =>
    simp only [fields?, h, mapM_eq_some_iff, Option.map_eq_some_iff]
    -- what the node stands for is about all entries, and no part of the induction over them
    clear h
    induction hentries with
    | nil => exact ⟨[], .nil, .nil⟩
    | cons hentry _ ih =>
      obtain ⟨fields, hfields, hshown⟩ := ih
      obtain ⟨hkey, hfield⟩ := hentry.field
      exact ⟨_ :: fields, .cons ⟨_, hkey, rfl⟩ hfields, .cons hfield hshown⟩

theorem valuesOf_cons (field : List Char × Node) (fields : List (List Char × Node))
    (name : String) :
    valuesOf (field :: fields) name =
      if field.1 = name.toList then field.2 :: valuesOf fields name else valuesOf fields name := by
  unfold valuesOf
  rw [List.filter_cons]
  by_cases h : field.1 = name.toList
  · simp only [h, decide_true, if_true, List.map_cons]
  · simp only [h, decide_false, Bool.false_eq_true, if_false]

/-- The values of a known name are shown by what is given for it. -/
theorem forall₂_valuesOf (h : List.Forall₂ (ShowsField known shows) fields l)
    (hname : name ∈ known) : List.Forall₂ (shows name) (valuesOf fields name) (l.given name) := by
  induction h with
  | nil => exact .nil
  | @cons field entry fields l hfield _ ih =>
    obtain ⟨hfst, hshown⟩ := hfield
    rw [valuesOf_cons, Entries.given_cons]
    by_cases heq : entry.1 = name
    · obtain ⟨v, hv, hvalue⟩ := hshown (heq ▸ hname)
      rw [if_pos (hfst.trans (congrArg String.toList heq)), if_pos heq, hv]
      exact .cons (heq ▸ hvalue) ih
    · rw [if_neg fun h => heq (String.toList_inj.mp (hfst.symm.trans h)), if_neg heq]
      exact ih

theorem field?_eq_some_iff (h : List.Forall₂ (ShowsField known shows) fields l) (name : String)
    (hname : name ∈ known) {read : Node → Option α} {means : β → α → Prop}
    (hread : Reads (shows name) read means) (byDefault x : α) :
    field? fields name byDefault read = some x ↔
      (l.given name).length ≤ 1 ∧ Takes (l.given name) means byDefault x := by
  have hvalues := forall₂_valuesOf h hname
  rw [field?, Takes]
  generalize valuesOf fields name = values at hvalues
  generalize l.given name = given at hvalues
  match hvalues with
  | .nil => simp [eq_comm]
  | .cons hvalue .nil => simp [hread hvalue]
  | .cons _ (.cons _ _) => simp

end Fields

/-! ### Sections are read -/

/-- What entries give for the section on bare amounts. -/
@[mk_iff]
structure GivesQuick (l : Entries Scalar) (quick : QuickConversion) : Prop where
  once : l.IsOnce (knownFields "quick_conversion")
  direction : Takes (l.given "direction") Scalar.Names ({} : QuickConversion).direction
    quick.direction
  localCurrency : Takes (l.given "local_currency") (·.optional = ·)
    ({} : QuickConversion).localCurrency quick.localCurrency
  globalCurrency : Takes (l.given "global_currency") (·.optional = ·)
    ({} : QuickConversion).globalCurrency quick.globalCurrency

/-- What entries give for the section on the source of rates. -/
@[mk_iff]
structure GivesProvider (l : Entries Scalar) (provider : ProviderConfig) : Prop where
  once : l.IsOnce (knownFields "provider")
  baseUrl : Takes (l.given "base_url") (·.word = ·) ({} : ProviderConfig).baseUrl provider.baseUrl
  timeout : Takes (l.given "timeout_secs") Scalar.IsDuration
    ({} : ProviderConfig).timeoutSeconds provider.timeoutSeconds

/-- What entries give for the section on the cache. -/
@[mk_iff]
structure GivesCache (l : Entries Scalar) (cache : CacheConfig) : Prop where
  once : l.IsOnce (knownFields "cache")
  validity : Takes (l.given "validity_secs") Scalar.IsDuration ({} : CacheConfig).validitySeconds
    cache.validitySeconds

section Sections

variable (d : Document)

theorem reads_quickConversion? :
    Reads (ShowsSection d "quick_conversion") (quickConversion? d) GivesQuick := by
  intro node l quick h
  obtain ⟨fields, hfields, hshown⟩ := h.exists_fields?
  have hdirection := field?_eq_some_iff hshown "direction" (by decide) (reads_direction? d)
  have hlocal := field?_eq_some_iff hshown "local_currency" (by decide) (reads_optionalText? d)
  have hglobal := field?_eq_some_iff hshown "global_currency" (by decide) (reads_optionalText? d)
  simp only [quickConversion?, hfields, Option.bind_eq_bind, Option.bind_some,
    Option.bind_eq_some_iff, hdirection, hlocal, hglobal, Option.pure_def, Option.some.injEq]
  constructor
  · rintro ⟨direction, ⟨hone, hdirection⟩, localCurrency, ⟨hone', hlocal⟩, globalCurrency,
      ⟨hone'', hglobal⟩, rfl⟩
    refine ⟨?_, hdirection, hlocal, hglobal⟩
    simpa [Entries.IsOnce, knownFields] using ⟨hone, hone', hone''⟩
  · rintro ⟨hone, hdirection, hlocal, hglobal⟩
    exact ⟨_, ⟨hone _ (by decide), hdirection⟩, _, ⟨hone _ (by decide), hlocal⟩, _,
      ⟨hone _ (by decide), hglobal⟩, rfl⟩

theorem reads_provider? : Reads (ShowsSection d "provider") (provider? d) GivesProvider := by
  intro node l provider h
  obtain ⟨fields, hfields, hshown⟩ := h.exists_fields?
  have hurl := field?_eq_some_iff hshown "base_url" (by decide) (reads_text? d)
  have htimeout := field?_eq_some_iff hshown "timeout_secs" (by decide) (reads_natural? d)
  simp only [provider?, hfields, Option.bind_eq_bind, Option.bind_some, Option.bind_eq_some_iff,
    hurl, htimeout, Option.pure_def, Option.some.injEq]
  constructor
  · rintro ⟨baseUrl, ⟨hone, hurl⟩, timeout, ⟨hone', htimeout⟩, rfl⟩
    refine ⟨?_, hurl, htimeout⟩
    simpa [Entries.IsOnce, knownFields] using ⟨hone, hone'⟩
  · rintro ⟨hone, hurl, htimeout⟩
    exact ⟨_, ⟨hone _ (by decide), hurl⟩, _, ⟨hone _ (by decide), htimeout⟩, rfl⟩

theorem reads_cache? : Reads (ShowsSection d "cache") (cache? d) GivesCache := by
  intro node l cache h
  obtain ⟨fields, hfields, hshown⟩ := h.exists_fields?
  have hvalidity := field?_eq_some_iff hshown "validity_secs" (by decide) (reads_natural? d)
  simp only [cache?, hfields, Option.bind_eq_bind, Option.bind_some, Option.bind_eq_some_iff,
    hvalidity, Option.pure_def, Option.some.injEq]
  constructor
  · rintro ⟨validity, ⟨hone, hvalidity⟩, rfl⟩
    refine ⟨?_, hvalidity⟩
    simpa [Entries.IsOnce, knownFields] using hone
  · rintro ⟨hone, hvalidity⟩
    exact ⟨_, ⟨hone _ (by decide), hvalidity⟩, rfl⟩

end Sections

/-! ### Configurations are read -/

theorem eq_nil_or_singleton {α : Type} {l : List α} (h : l.length ≤ 1) : l = [] ∨ ∃ a, l = [a] :=
  match l, h with
  | [], _ => .inl rfl
  | [a], _ => .inr ⟨a, rfl⟩

theorem Takes.exists_means {α β : Type} {given : List β} {means : β → α → Prop} {byDefault x : α}
    (h : Takes given means byDefault x) (hone : given.length ≤ 1) :
    ∀ v ∈ given, ∃ x, means v x := by
  obtain rfl | ⟨v, rfl⟩ := eq_nil_or_singleton hone
  · simp
  · simp only [Takes, List.mem_singleton, exists_eq_left, List.cons_ne_self, false_and, or_false]
      at h
    exact List.forall_mem_singleton.mpr ⟨x, h⟩

theorem exists_takes {α β : Type} {given : List β} {means : β → α → Prop}
    (h : ∀ v ∈ given, ∃ x, means v x) (byDefault : α) : ∃ x, Takes given means byDefault x := by
  cases given with
  | nil => exact ⟨byDefault, .inr ⟨rfl, rfl⟩⟩
  | cons v given =>
    obtain ⟨x, hx⟩ := h v List.mem_cons_self
    exact ⟨x, .inl ⟨v, List.mem_cons_self, hx⟩⟩

theorem isOnce_flatten_iff {given : List (Entries Scalar)} (hone : given.length ≤ 1)
    (names : List String) :
    Entries.IsOnce given.flatten names ↔ ∀ fields ∈ given, fields.IsOnce names := by
  obtain rfl | ⟨fields, rfl⟩ := eq_nil_or_singleton hone
  · simp [Entries.IsOnce]
  · simp

theorem givesQuick_nil_iff {quick : QuickConversion} : GivesQuick [] quick ↔ quick = {} := by
  obtain ⟨direction, localCurrency, globalCurrency⟩ := quick
  simp [givesQuick_iff, Entries.IsOnce]

theorem givesProvider_nil_iff {provider : ProviderConfig} :
    GivesProvider [] provider ↔ provider = {} := by
  obtain ⟨baseUrl, timeoutSeconds⟩ := provider
  simp [givesProvider_iff, Entries.IsOnce]

theorem givesCache_nil_iff {cache : CacheConfig} : GivesCache [] cache ↔ cache = {} := by
  obtain ⟨validitySeconds⟩ := cache
  simp [givesCache_iff, Entries.IsOnce]

section Configurations

variable {o : Outline} {c : Config}

/-- The sections of a well-formed outline give what the configuration has. -/
theorem wellFormed_and_loads_iff : o.WellFormed ∧ o.Loads c ↔ o.IsOnce knownSections ∧
    GivesQuick (o.given "quick_conversion").flatten c.quick ∧
    GivesProvider (o.given "provider").flatten c.provider ∧
    GivesCache (o.given "cache").flatten c.cache := by
  -- the parts of both sides are the same, but for fields given once: in each section on the
  -- left, and in what the sections of a name give together on the right
  constructor
  · rintro ⟨hw, hl⟩
    have honce (name : String) (hname : name ∈ knownSections) :
        Entries.IsOnce (o.given name).flatten (knownFields name) :=
      (isOnce_flatten_iff (hw.sections_once name hname) _).mpr (hw.fields_once name hname)
    exact ⟨hw.sections_once,
      ⟨honce _ (by decide), hl.direction, hl.localCurrency, hl.globalCurrency⟩,
      ⟨honce _ (by decide), hl.baseUrl, hl.timeout⟩, ⟨honce _ (by decide), hl.validity⟩⟩
  · rintro ⟨hsections, hquick, hprovider, hcache⟩
    have hfields : ∀ name ∈ knownSections, ∀ fields ∈ o.given name,
        fields.IsOnce (knownFields name) := by
      intro name hname
      rw [← isOnce_flatten_iff (hsections name hname)]
      simp only [knownSections, List.mem_cons, List.not_mem_nil, or_false] at hname
      rcases hname with rfl | rfl | rfl
      · exact hquick.once
      · exact hprovider.once
      · exact hcache.once
    exact ⟨⟨hsections, hfields, hquick.direction.exists_means (hquick.once _ (by decide)),
        hprovider.timeout.exists_means (hprovider.once _ (by decide)),
        hcache.validity.exists_means (hcache.once _ (by decide))⟩,
      ⟨hquick.direction, hquick.localCurrency, hquick.globalCurrency, hprovider.baseUrl,
        hprovider.timeout, hcache.validity⟩⟩

theorem exists_loads (h : o.WellFormed) : ∃ c, o.Loads c := by
  have hany {α : Type} (read : Scalar → α) (given : List Scalar) : ∀ s ∈ given, ∃ x, read s = x :=
    fun s _ => ⟨read s, rfl⟩
  obtain ⟨direction, hdirection⟩ := exists_takes h.direction ({} : Config).quick.direction
  obtain ⟨localCurrency, hlocal⟩ := exists_takes (hany Scalar.optional _) _
  obtain ⟨globalCurrency, hglobal⟩ := exists_takes (hany Scalar.optional _) _
  obtain ⟨baseUrl, hurl⟩ := exists_takes (hany Scalar.word _) _
  obtain ⟨timeout, htimeout⟩ := exists_takes h.timeout ({} : Config).provider.timeoutSeconds
  obtain ⟨validity, hvalidity⟩ := exists_takes h.validity ({} : Config).cache.validitySeconds
  exact ⟨⟨⟨direction, localCurrency, globalCurrency⟩, ⟨baseUrl, timeout⟩, ⟨validity⟩⟩,
    ⟨hdirection, hlocal, hglobal, hurl, htimeout, hvalidity⟩⟩

/-- A section is read when it is given at most once, and as one without fields when it is not
given. -/
theorem section?_eq_some_iff {α : Type} {d : Document} {fields : List (List Char × Node)}
    (h : List.Forall₂ (ShowsField knownSections (ShowsSection d)) fields o) (name : String)
    (hname : name ∈ knownSections) {read : Node → Option α} {means : Entries Scalar → α → Prop}
    (hread : Reads (ShowsSection d name) read means) {byDefault : α}
    (hempty : ∀ {x}, means [] x ↔ x = byDefault) (x : α) :
    field? fields name byDefault read = some x ↔
      (o.given name).length ≤ 1 ∧ means (o.given name).flatten x := by
  rw [field?_eq_some_iff h name hname hread]
  refine and_congr_right fun hone => ?_
  obtain hnone | ⟨l, hl⟩ := eq_nil_or_singleton hone
  · simp [hnone, hempty]
  · simp [hl, Takes]

theorem reads_config? (d : Document) : Reads (ShowsMapping d knownSections (ShowsSection d))
    (config? d) (fun o c => Outline.WellFormed o ∧ Outline.Loads o c) := by
  intro node o c h
  obtain ⟨fields, hfields, hshown⟩ := h.exists_fields?
  have hquick := section?_eq_some_iff hshown "quick_conversion" (by decide)
    (reads_quickConversion? d) givesQuick_nil_iff
  have hprovider := section?_eq_some_iff hshown "provider" (by decide) (reads_provider? d)
    givesProvider_nil_iff
  have hcache := section?_eq_some_iff hshown "cache" (by decide) (reads_cache? d) givesCache_nil_iff
  simp only [config?, hfields, Option.bind_eq_bind, Option.bind_some, Option.bind_eq_some_iff,
    hquick, hprovider, hcache, Option.pure_def, Option.some.injEq]
  rw [wellFormed_and_loads_iff]
  constructor
  · rintro ⟨quick, ⟨hone, hquick⟩, provider, ⟨hone', hprovider⟩, cache, ⟨hone'', hcache⟩, rfl⟩
    refine ⟨?_, hquick, hprovider, hcache⟩
    simpa [Entries.IsOnce, knownSections] using ⟨hone, hone', hone''⟩
  · rintro ⟨hsections, hquick, hprovider, hcache⟩
    exact ⟨_, ⟨hsections _ (by decide), hquick⟩, _, ⟨hsections _ (by decide), hprovider⟩, _,
      ⟨hsections _ (by decide), hcache⟩, rfl⟩

/-- What a document gives is what its outline decides. -/
theorem ofDocument?_eq_some_iff {d : Document} (h : Shows d o) :
    Config.ofDocument? d = some c ↔ o.WellFormed ∧ o.Loads c := by
  unfold Config.ofDocument?
  cases h with
  | empty hroot =>
    rw [hroot, wellFormed_and_loads_iff]
    obtain ⟨quick, provider, cache⟩ := c
    simp [Entries.IsOnce, givesQuick_nil_iff, givesProvider_nil_iff, givesCache_nil_iff, eq_comm]
  | root hroot hshown =>
    rw [hroot]
    exact reads_config? d hshown

end Configurations

/-! ### Outlines are rearranged -/

/-- Entries change their places, unknown ones come and go, and what is given for a known name is
rearranged itself, any number of times. -/
inductive Rearranged {β : Type} (known : List String) (inside : String → β → β → Prop) :
    Entries β → Entries β → Prop
  | perm {l l' : Entries β} : l.Perm l' → Rearranged known inside l l'
  | unknown {name : String} {l : Entries β} : name ∉ known →
      Rearranged known inside l ((name, none) :: l)
  | inside {name : String} {v v' : β} {l : Entries β} : inside name v v' →
      Rearranged known inside ((name, some v) :: l) ((name, some v') :: l)
  | symm {l l' : Entries β} : Rearranged known inside l l' → Rearranged known inside l' l
  | trans {l l' l'' : Entries β} : Rearranged known inside l l' →
      Rearranged known inside l' l'' → Rearranged known inside l l''

/-- Sections and fields are rearranged; the fields keep their scalars. -/
def Outline.Rearranged : Outline → Outline → Prop :=
  ConfigReading.Rearranged knownSections fun name =>
    ConfigReading.Rearranged (knownFields name) fun _ => Eq

/-- What is given for a known name is as much as before, and has the properties that stay when it
is rearranged itself. -/
theorem Rearranged.given {β : Type} {known : List String} {inside : String → β → β → Prop}
    {l l' : Entries β} (h : Rearranged known inside l l') {name : String} (hname : name ∈ known)
    {P : β → Prop} (hP : ∀ {v v'}, inside name v v' → (P v ↔ P v')) :
    (l.given name).length = (l'.given name).length ∧
      ((∃ v ∈ l.given name, P v) ↔ ∃ v ∈ l'.given name, P v) := by
  -- a single step of each kind; the steps the other way round and in a row follow
  induction h with
  | perm hperm =>
    have hgiven := hperm.filterMap fun entry => if entry.1 = name then entry.2 else none
    exact ⟨hgiven.length_eq, by simp only [Entries.given, hgiven.mem_iff]⟩
  | @unknown other l hother =>
    have hne : other ≠ name := fun h => hother (h ▸ hname)
    rw [Entries.given_cons, if_neg hne]
    exact ⟨rfl, Iff.rfl⟩
  | @inside other v v' l hinside =>
    rw [Entries.given_cons, Entries.given_cons]
    by_cases heq : other = name
    · simp [heq, hP (heq ▸ hinside)]
    · simp [heq]
  | symm _ ih => exact ⟨ih.1.symm, ih.2.symm⟩
  | trans _ _ ih ih' => exact ⟨ih.1.trans ih'.1, ih.2.trans ih'.2⟩

theorem Rearranged.length_given {β : Type} {known : List String} {inside : String → β → β → Prop}
    {l l' : Entries β} (h : Rearranged known inside l l') {name : String} (hname : name ∈ known) :
    (l.given name).length = (l'.given name).length :=
  (h.given hname (P := fun _ => True) fun _ => Iff.rfl).1

theorem Rearranged.forall_given_iff {β : Type} {known : List String}
    {inside : String → β → β → Prop} {l l' : Entries β} (h : Rearranged known inside l l')
    {name : String} (hname : name ∈ known) {P : β → Prop}
    (hP : ∀ {v v'}, inside name v v' → (P v ↔ P v')) :
    (∀ v ∈ l.given name, P v) ↔ ∀ v ∈ l'.given name, P v := by
  have hnone := not_congr (h.given hname (P := fun v => ¬P v) fun hv => not_congr (hP hv)).2
  simpa using hnone

theorem Outline.mem_values_iff {o : Outline} {name field : String} {s : Scalar} :
    s ∈ o.values name field ↔ ∃ fields ∈ o.given name, s ∈ fields.given field := by
  simp only [Outline.values, Entries.given, List.mem_filterMap, List.mem_flatten]
  constructor
  · rintro ⟨entry, ⟨fields, hfields, hentry⟩, hs⟩
    exact ⟨fields, hfields, entry, hentry, hs⟩
  · rintro ⟨fields, hfields, entry, hentry, hs⟩
    exact ⟨entry, ⟨fields, hfields, hentry⟩, hs⟩

theorem takes_congr {α β : Type} {given given' : List β} (h : ∀ v, v ∈ given ↔ v ∈ given')
    {means : β → α → Prop} {byDefault x : α} :
    Takes given means byDefault x ↔ Takes given' means byDefault x := by
  have hnil : given = [] ↔ given' = [] := by
    simp only [List.eq_nil_iff_forall_not_mem, h]
  simp only [Takes, h, hnil]

namespace Outline.Rearranged

variable {o o' : Outline}

/-- What is given for a field stays. -/
theorem mem_values_iff (h : o.Rearranged o') {name field : String} (hname : name ∈ knownSections)
    (hfield : field ∈ knownFields name) (s : Scalar) :
    s ∈ o.values name field ↔ s ∈ o'.values name field := by
  rw [Outline.mem_values_iff, Outline.mem_values_iff]
  refine (ConfigReading.Rearranged.given h hname fun {fields fields'} hinside => ?_).2
  have hs := (ConfigReading.Rearranged.given hinside hfield fun {v v'} hv =>
    (by rw [hv] : v = s ↔ v' = s)).2
  simpa using hs

theorem isOnce_iff (h : o.Rearranged o') : o.IsOnce knownSections ↔ o'.IsOnce knownSections :=
  forall₂_congr fun _ hname => by rw [h.length_given hname]

theorem fields_once_iff (h : o.Rearranged o') {name : String} (hname : name ∈ knownSections) :
    (∀ fields ∈ o.given name, fields.IsOnce (knownFields name)) ↔
      ∀ fields ∈ o'.given name, fields.IsOnce (knownFields name) :=
  h.forall_given_iff hname fun hinside =>
    forall₂_congr fun _ hfield => by rw [hinside.length_given hfield]

theorem wellFormed_iff (h : o.Rearranged o') : o.WellFormed ↔ o'.WellFormed := by
  have hfields : (∀ name ∈ knownSections, ∀ fields ∈ o.given name,
        fields.IsOnce (knownFields name)) ↔
      ∀ name ∈ knownSections, ∀ fields ∈ o'.given name, fields.IsOnce (knownFields name) :=
    forall₂_congr fun _ hname => h.fields_once_iff hname
  rw [Outline.wellFormed_iff, Outline.wellFormed_iff, h.isOnce_iff, hfields]
  simp only [h.mem_values_iff (show "quick_conversion" ∈ knownSections by decide)
      (show "direction" ∈ knownFields "quick_conversion" by decide),
    h.mem_values_iff (show "provider" ∈ knownSections by decide)
      (show "timeout_secs" ∈ knownFields "provider" by decide),
    h.mem_values_iff (show "cache" ∈ knownSections by decide)
      (show "validity_secs" ∈ knownFields "cache" by decide)]

theorem loads_iff (h : o.Rearranged o') {c : Config} : o.Loads c ↔ o'.Loads c := by
  rw [Outline.loads_iff, Outline.loads_iff]
  refine and_congr (takes_congr (h.mem_values_iff ?_ ?_)) <|
    and_congr (takes_congr (h.mem_values_iff ?_ ?_)) <|
    and_congr (takes_congr (h.mem_values_iff ?_ ?_)) <|
    and_congr (takes_congr (h.mem_values_iff ?_ ?_)) <|
    and_congr (takes_congr (h.mem_values_iff ?_ ?_)) (takes_congr (h.mem_values_iff ?_ ?_))
  all_goals decide

end Outline.Rearranged

theorem ofDocument?_congr {d d' : Document} {o o' : Outline} (h : Shows d o) (h' : Shows d' o')
    (hrearranged : o.Rearranged o') : Config.ofDocument? d' = Config.ofDocument? d :=
  Option.ext fun c => by
    rw [ofDocument?_eq_some_iff h, ofDocument?_eq_some_iff h', hrearranged.wellFormed_iff,
      hrearranged.loads_iff]

/-- **A configuration is what its document gives, and the default in every other field.** A
document whose known names have what they should is read exactly when its outline is
well-formed; and then every value that is given is taken, and nothing else differs from the
default. To rearrange sections and fields, and to add or to leave out names that are not known,
whatever they are given, makes no difference. A file with this document is loaded as it is
read. -/
theorem config_merges_with_defaults {d : Document} {o : Outline} (h : Shows d o) :
    ((Config.ofDocument? d).isSome ↔ o.WellFormed) ∧
    (∀ c, Config.ofDocument? d = some c ↔ o.WellFormed ∧ o.Loads c) ∧
    (∀ d' o', Shows d' o' → o.Rearranged o' → Config.ofDocument? d' = Config.ofDocument? d) ∧
    ∀ files path text, (files.read? path).bind Text.Utf8.decode? = some text →
      Document.ofText text = .ok d →
      Config.load files path =
        (Config.ofDocument? d).elim (.error (.malformedConfig path)) .ok := by
  refine ⟨⟨fun hsome => ?_, fun hwell => ?_⟩, fun c => ofDocument?_eq_some_iff h,
    fun d' o' => ofDocument?_congr h, fun files path text hread htext => ?_⟩
  · obtain ⟨c, hc⟩ := Option.isSome_iff_exists.mp hsome
    exact ((ofDocument?_eq_some_iff h).mp hc).1
  · obtain ⟨c, hc⟩ := exists_loads hwell
    exact Option.isSome_iff_exists.mpr ⟨c, (ofDocument?_eq_some_iff h).mpr ⟨hwell, hc⟩⟩
  · have hdocument : Config.ofText? text = Config.ofDocument? d := by rw [Config.ofText?, htext]
    rw [Config.load, hread]
    dsimp only
    rw [hdocument]
    cases Config.ofDocument? d <;> rfl

/-- Sections in another order, given in part and among unknown names. -/
theorem config_merges_with_defaults_in_part :
    let word (text : String) : Node := .scalar .plain none text.toList
    let d : Document := { root := some (.mapping none [
      (word "cache", .mapping none
        [(word "unit", .alias 7), (word "validity_secs", word "0xFFFFFFFFFFFFFFFF")]),
      (word "note", .sequence none []),
      (word "quick_conversion", .mapping none
        [(word "local_currency", word "~"), (word "direction", word "global_to_local")])]) }
    let o : Outline :=
      [("cache", some [("unit", none),
        ("validity_secs", some ⟨.plain, "0xFFFFFFFFFFFFFFFF".toList⟩)]),
      ("note", none),
      ("quick_conversion", some [("local_currency", some ⟨.plain, "~".toList⟩),
        ("direction", some ⟨.plain, "global_to_local".toList⟩)])]
    let c : Config := { quick := { direction := .globalToLocal }, cache := ⟨2 ^ 64 - 1⟩ }
    Shows d o ∧ Config.ofDocument? d = some c ∧ o.WellFormed ∧ o.Loads c := by
  intro word d o c
  have hcache : ShowsSection d "cache" (.mapping none
      [(word "unit", .alias 7), (word "validity_secs", word "0xFFFFFFFFFFFFFFFF")])
      [("unit", none), ("validity_secs", some ⟨.plain, "0xFFFFFFFFFFFFFFFF".toList⟩)] :=
    .mapping rfl (.cons (.unknown ⟨_, _, rfl⟩ (by decide))
      (.cons (.known ⟨_, _, rfl⟩ (by decide) rfl) .nil))
  have hquick : ShowsSection d "quick_conversion" (.mapping none
      [(word "local_currency", word "~"), (word "direction", word "global_to_local")])
      [("local_currency", some ⟨.plain, "~".toList⟩),
        ("direction", some ⟨.plain, "global_to_local".toList⟩)] :=
    .mapping rfl (.cons (.known ⟨_, _, rfl⟩ (by decide) rfl)
      (.cons (.known ⟨_, _, rfl⟩ (by decide) rfl) .nil))
  have hshows : Shows d o := .root rfl (.mapping rfl
    (.cons (.known ⟨_, _, rfl⟩ (by decide) hcache) (.cons (.unknown ⟨_, _, rfl⟩ (by decide))
      (.cons (.known ⟨_, _, rfl⟩ (by decide) hquick) .nil))))
  have hread : Config.ofDocument? d = some c := by decide +kernel
  exact ⟨hshows, hread, ((config_merges_with_defaults hshows).2.1 c).mp hread⟩

end CurrencyDesk.ConfigReading
