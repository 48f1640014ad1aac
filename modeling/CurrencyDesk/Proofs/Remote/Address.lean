import CurrencyDesk.Proofs.Text.Case
import CurrencyDesk.Proofs.Url.Path
import CurrencyDesk.Remote.Site
import CurrencyDesk.Text.Blank
/-!
# Addresses of documents

The document of a pair lies in the directory of the base, and its address adds a segment for
each code to those of the directory (`url_eq`). Whatever characters a code has, its segment is
read back as the code, and nothing of it leaves its segment (`address_of_codes`). Only a source
of dots has no segment: it is passed over, so pairs of such sources with one target share a
document, and no other pairs do (`same_address_iff`).

Key definitions: `RateSite.directory`, `RateSite.documentSegments`, `RateSite.IsAddress`.
Key theorems: `RateSite.url_eq`, `RateSite.address_of_codes`, `RateSite.same_address_iff`.
-/

namespace CurrencyDesk.RateSite

open Text (lower lowerString)
open Url (Path IsSettled escape unescape isSegmentEscaped isSkipped segmentsOf)

/-! ### Codes -/

/-- A code has no tabs and no line breaks, which do not count in an address. -/
def IsKept (code : String) : Prop :=
  ∀ c ∈ code.toList, isSkipped c = false

instance : DecidablePred IsKept := fun code =>
  decidable_of_iff (code.toList.all (!isSkipped ·) = true) (by simp [IsKept])

/-- A code is one of those that are passed over in an address. -/
def IsDots (code : String) : Prop :=
  code = "." ∨ code = ".."

instance : DecidablePred IsDots :=
  fun code => inferInstanceAs (Decidable (code = "." ∨ code = ".."))

theorem eq_of_isSkipped {c : Char} (h : isSkipped c = true) : c = '\t' ∨ c = '\n' ∨ c = '\r' := by
  simpa [isSkipped] using h

theorem isKept_lowerString {code : String} (h : IsKept code) : IsKept (lowerString code) := by
  intro c hc
  rw [lowerString, String.toList_ofList] at hc
  by_cases hsmall : Text.isBelowSmall c = true
  · exact h c (Text.mem_of_mem_lower hsmall hc)
  · rw [Bool.eq_false_iff]
    intro hskipped
    rcases eq_of_isSkipped hskipped with rfl | rfl | rfl <;> exact hsmall rfl

/-- A text below the small letters that is its own lower case is that of no other text. -/
theorem lowerString_eq_iff {code mark : String}
    (hmark : mark.toList.all Text.isBelowSmall = true) (hself : lowerString mark = mark) :
    lowerString code = mark ↔ code = mark := by
  constructor
  · intro h
    rw [← h, lowerString, String.toList_ofList, List.all_eq_true] at hmark
    rw [← h, lowerString, ← Text.eq_of_lower_eq rfl hmark, String.ofList_toList]
  · rintro rfl
    exact hself

theorem isDots_lowerString_iff {code : String} : IsDots (lowerString code) ↔ IsDots code :=
  or_congr (lowerString_eq_iff (by decide) rfl) (lowerString_eq_iff (by decide) rfl)

theorem lowerString_ne_empty {code : String} (h : code ≠ "") : lowerString code ≠ "" :=
  (lowerString_eq_iff (by decide) rfl).not.mpr h

/-! ### The segments of a document -/

/-- The directory of a base has its segments, less an empty one at the end; the path of two empty
segments leads to the root as well. -/
def directory : List (List Char) → List (List Char)
  | [[], []] => []
  | segments => if segments.getLast? = some [] then segments.dropLast else segments

/-- The segment that stands for a code, or for a code with what is put behind it. -/
def codeSegment (code : String) : List Char :=
  escape (isSegmentEscaped true) code.toList

/-- The segments of the document of a pair below the directory. -/
def documentSegments (pair : CurrencyPair) : List (List Char) :=
  (if IsDots pair.source then [] else [codeSegment pair.source]) ++
    [codeSegment (pair.target ++ ".json")]

/-- The segments of the address of a document. -/
def addressSegments (site : RateSite) (pair : CurrencyPair) : List (List Char) :=
  directory site.base.path.segments ++ documentSegments pair

theorem codeSegment_injective : Function.Injective codeSegment := by
  intro code other h
  exact String.toList_inj.mp (Url.escape_injective (Url.isSegmentEscaped_percent true) h)

theorem unescape_codeSegment (code : String) :
    unescape (codeSegment code) = Text.Utf8.encode code.toList :=
  Url.unescape_escape (Url.isSegmentEscaped_percent true) code.toList

theorem codeSegment_ne_nil {code : String} (h : code ≠ "") : codeSegment code ≠ [] :=
  fun hnil => h (codeSegment_injective hnil)

theorem not_isDots_json (code : String) : ¬IsDots (code ++ ".json") := by
  intro h
  have hshort : (code ++ ".json").length ≤ 2 := by
    rcases h with h | h <;> rw [h] <;> decide
  have hlong : (code ++ ".json").length = code.length + 5 := String.length_append ..
  omega

/-- What segments are put behind is the directory. -/
theorem stem_withoutEmptyEnd (segments : List (List Char)) :
    Path.stem (Path.withoutEmptyEnd (.rooted segments)).segments = directory segments := by
  match segments with
  | [] => rfl
  | [[]] => rfl
  | [c :: s] => rfl
  | [[], []] => rfl
  | [c :: s, []] => rfl
  | [first, c :: s] => simp [Path.withoutEmptyEnd, Path.segments, Path.stem, directory]
  | first :: second :: third :: rest =>
    by_cases hend : (third :: rest).getLast? = some []
    · simp [Path.withoutEmptyEnd, Path.segments, Path.stem, directory, hend]
    · simp [Path.withoutEmptyEnd, Path.segments, Path.stem, directory, hend]

theorem isSettled_codeSegment {code : String} (h : ¬IsDots code) :
    IsSettled true (codeSegment code) := by
  refine Url.isSettled_escape (fun hdot => h (.inl ?_)) (fun hdots => h (.inr ?_))
  · exact String.toList_inj.mp hdot
  · exact String.toList_inj.mp hdots

theorem isSettled_of_mem_documentSegments {pair : CurrencyPair} :
    ∀ segment ∈ documentSegments pair, IsSettled true segment := by
  refine List.forall_mem_append.mpr ⟨fun segment hsegment => ?_, ?_⟩
  · split_ifs at hsegment with hdots
    · exact absurd hsegment List.not_mem_nil
    · obtain rfl := List.mem_singleton.mp hsegment
      exact isSettled_codeSegment hdots
  · rw [List.forall_mem_singleton]
    exact isSettled_codeSegment (not_isDots_json _)

theorem sourceSegments_eq_iff {source other : String} :
    (if IsDots source then [] else [codeSegment source]) =
        (if IsDots other then [] else [codeSegment other]) ↔
      source = other ∨ IsDots source ∧ IsDots other := by
  by_cases hsource : IsDots source
  · by_cases hother : IsDots other
    · simp only [hsource, hother, if_true, and_self, or_true]
    · have hne : source ≠ other := fun h => hother (h ▸ hsource)
      simp [hsource, hother, hne]
  · by_cases hother : IsDots other
    · have hne : source ≠ other := fun h => hsource (h ▸ hother)
      simp [hsource, hother, hne]
    · simp [hsource, hother, codeSegment_injective.eq_iff]

/-- Documents have the same segments if they belong to the same pair, or else to pairs with one
target whose sources are passed over. -/
theorem documentSegments_eq_iff {p q : CurrencyPair} :
    documentSegments p = documentSegments q ↔
      p = q ∨ p.target = q.target ∧ IsDots p.source ∧ IsDots q.source := by
  obtain ⟨source, target⟩ := p
  obtain ⟨other, target'⟩ := q
  unfold documentSegments
  rw [List.append_singleton_inj, sourceSegments_eq_iff, codeSegment_injective.eq_iff,
    String.append_left_inj, CurrencyPair.mk.injEq]
  tauto

/-! ### The address of a document -/

theorem isSpecial_of_isWeb {u : Url} (h : u.isWeb = true) : Url.isSpecial u.scheme = true := by
  unfold Url.isWeb at h
  simp only [Bool.or_eq_true, decide_eq_true_eq] at h
  rcases h with h | h <;> rw [h] <;> rfl

theorem stem_append_singleton {segments : List (List Char)} {segment : List Char}
    (h : segment ≠ []) : Path.stem (segments ++ [segment]) = segments ++ [segment] := by
  rw [Path.stem]
  intro hempty
  have hlast := congrArg List.getLast? hempty
  rw [List.getLast?_concat] at hlast
  exact h (Option.some.inj hlast)

section

variable {base : Url} {code : String} {segments : List (List Char)}

theorem pushSegment_of_isDots (hdots : IsDots code) :
    pushSegment code { base with path := .rooted segments } =
      { base with path := .rooted segments } := by
  have hskip : code.toList = ['.'] ∨ code.toList = ['.', '.'] := by
    rcases hdots with rfl | rfl
    · exact .inl rfl
    · exact .inr rfl
  rw [pushSegment, Path.push, if_pos hskip]

theorem pushSegment_of_not_isDots (hspecial : Url.isSpecial base.scheme = true)
    (hkept : IsKept code) (hdots : ¬IsDots code) :
    pushSegment code { base with path := .rooted segments } =
      { base with path := .rooted (Path.stem segments ++ [codeSegment code]) } := by
  obtain ⟨hsingle, hdouble⟩ := not_or.mp hdots
  rw [pushSegment, hspecial, Path.push_rooted segments _ _ hkept, codeSegment]
  · exact fun h => hsingle (String.toList_inj.mp h)
  · exact fun h => hdouble (String.toList_inj.mp h)

end

section

variable {site : RateSite} (pair : CurrencyPair)

/-- The address of a document is that of the base with the segments of the document behind its
directory. -/
theorem url_eq (hspecial : Url.isSpecial site.base.scheme = true) (hne : pair.source ≠ "")
    (hsource : IsKept pair.source) (htarget : IsKept pair.target) :
    site.url pair = { site.base with path := .rooted (site.addressSegments pair) } := by
  have hjson : IsKept (pair.target ++ ".json") := by
    intro c hc
    rw [String.toList_append, List.mem_append] at hc
    exact hc.elim (htarget c) ((by decide : IsKept ".json") c)
  obtain ⟨segments, hbase⟩ : ∃ segments, site.base.path.withoutEmptyEnd = .rooted segments := by
    rw [site.isRooted]
    exact ⟨_, rfl⟩
  have hstem : Path.stem segments = directory site.base.path.segments := by
    rw [← stem_withoutEmptyEnd, ← site.isRooted, hbase]
    rfl
  unfold url addressSegments documentSegments
  rw [hbase]
  by_cases hdots : IsDots pair.source
  · rw [pushSegment_of_isDots hdots,
      pushSegment_of_not_isDots hspecial hjson (not_isDots_json _), hstem, if_pos hdots,
      List.nil_append]
  · rw [pushSegment_of_not_isDots hspecial hsource hdots,
      pushSegment_of_not_isDots hspecial hjson (not_isDots_json _),
      stem_append_singleton (codeSegment_ne_nil hne), hstem, if_neg hdots, List.append_assoc]

/-! ### Addresses are read back -/

theorem ofText?_of_ofText {text : String} (h : RateSite.ofText text = .ok site) :
    Url.ofText? text.toList = some site.base := by
  unfold RateSite.ofText at h
  split at h
  · cases h
  · rename_i base hbase
    split_ifs at h
    cases h
    exact hbase

theorem mem_of_mem_directory {segments : List (List Char)} {segment : List Char}
    (h : segment ∈ directory segments) : segment ∈ segments := by
  unfold directory at h
  split at h
  · exact absurd h List.not_mem_nil
  · split_ifs at h
    · exact List.dropLast_subset _ h
    · exact h

theorem isSettled_of_mem_address {text : String} (hsite : RateSite.ofText text = .ok site)
    (hspecial : Url.isSpecial site.base.scheme = true) :
    ∀ segment ∈ site.addressSegments pair, IsSettled true segment := by
  obtain ⟨path, hpath⟩ := Url.exists_segmentsOf_of_ofText? (ofText?_of_ofText hsite) hspecial
  refine List.forall_mem_append.mpr ⟨fun segment hsegment => ?_, isSettled_of_mem_documentSegments⟩
  refine Url.isSettled_of_mem_segmentsOf segment (s := path) ?_
  have hmem := mem_of_mem_directory hsegment
  rwa [hpath] at hmem

/-- The text of an address is read as the segments of the directory and of the document. -/
theorem segmentsOf_address {text : String} (hsite : RateSite.ofText text = .ok site)
    (hspecial : Url.isSpecial site.base.scheme = true) :
    segmentsOf true (Path.rooted (site.addressSegments pair)).text = site.addressSegments pair :=
  Url.segmentsOf_text (by simp [addressSegments, documentSegments])
    (isSettled_of_mem_address pair hsite hspecial)

/-- A settled path is written in printable characters of ASCII, with no mark that begins a query or
a fragment and no slash but those between segments. -/
theorem printable_of_mem_text {segments : List (List Char)}
    (h : ∀ segment ∈ segments, IsSettled true segment) {c : Char}
    (hc : c ∈ (Path.rooted segments).text) :
    0x20 < c.toNat ∧ c.toNat < 0x7F ∧ c ∉ ['?', '#', '\\'] := by
  rcases Url.mem_text hc with rfl | ⟨segment, hsegment, hc⟩
  · decide
  · obtain ⟨hescaped, hslash⟩ := (h segment hsegment).plain c hc
    simp only [Url.isPathEscaped, Url.isFragmentEscaped, Url.isControl, Bool.or_eq_false_iff,
      decide_eq_false_iff_not, List.contains_eq_mem, List.mem_cons, List.not_mem_nil, or_false,
      not_or] at hescaped
    obtain ⟨⟨⟨hlow, hhigh⟩, hspace, -⟩, hhash, hquery, -⟩ := hescaped
    have hne : c.toNat ≠ 0x20 := fun h => hspace (Char.toNat_inj.mp h)
    simp only [Url.isSlash, Bool.or_eq_false_iff, Bool.true_and, decide_eq_false_iff_not] at hslash
    refine ⟨by omega, by omega, ?_⟩
    simp [hhash, hquery, hslash.2]

end

/-! ### Codes stay in their segments -/

/-- A URL is the address of two codes below a base: it adds a segment for each of them to the
directory, as which it is read back, and is the base in all else. -/
structure IsAddress (base : Url) (source target first second : List Char) (u : Url) : Prop where
  url_eq : u = { base with path := .rooted (directory base.path.segments ++ [first, second]) }
  source_eq : unescape first = Text.Utf8.encode source
  target_eq : unescape second = Text.Utf8.encode (target ++ ".json".toList)
  segments_eq : segmentsOf true u.path.text = directory base.path.segments ++ [first, second]
  printable : ∀ c ∈ u.path.text, 0x20 < c.toNat ∧ c.toNat < 0x7F ∧ c ∉ ['?', '#', '\\']

/-- **Codes stay in their segments.** Below a base of the web the address of a pair has a segment
for each code, whose escapes stand for the code in lower case; no character of a code adds another
segment, a query or a fragment, or leads out of the directory. -/
theorem address_of_codes {text source target : String} {site : RateSite}
    (hsite : RateSite.ofText text = .ok site) (hweb : site.base.isWeb = true) (hne : source ≠ "")
    (hsource : IsKept source) (htarget : IsKept target) (hdots : ¬IsDots source) :
    ∃ first second, IsAddress site.base (lower source.toList) (lower target.toList) first second
      (site.url (.ofCodes source target)) := by
  have hspecial := isSpecial_of_isWeb hweb
  have haddress : site.addressSegments (.ofCodes source target) =
      directory site.base.path.segments ++
        [codeSegment (lowerString source), codeSegment (lowerString target ++ ".json")] := by
    rw [addressSegments, documentSegments, CurrencyPair.ofCodes,
      if_neg (isDots_lowerString_iff.not.mpr hdots), List.singleton_append]
  have hurl := url_eq (.ofCodes source target) hspecial (lowerString_ne_empty hne)
    (isKept_lowerString hsource) (isKept_lowerString htarget)
  have hsegments := segmentsOf_address (.ofCodes source target) hsite hspecial
  have hsettled := isSettled_of_mem_address (.ofCodes source target) hsite hspecial
  refine ⟨_, _, ⟨haddress ▸ hurl, ?_, ?_, ?_, ?_⟩⟩
  · rw [unescape_codeSegment, lowerString, String.toList_ofList]
  · rw [unescape_codeSegment, String.toList_append, lowerString, String.toList_ofList]
  · rw [hurl, hsegments, haddress]
  · rw [hurl]
    exact fun c hc => printable_of_mem_text hsettled hc

/-- Escapes and dots inside a code, and marks of URLs, below a base with a query and a fragment. -/
theorem address_of_marks : ∃ site,
    RateSite.ofText "http://rates.test:8080/api/v1/?key=1#top" = .ok site ∧
    site.base.isWeb = true ∧ "%2E%2e/..\\.." ≠ "" ∧ IsKept "%2E%2e/..\\.." ∧ IsKept "Ü?#%2F" ∧
    ¬IsDots "%2E%2e/..\\.." ∧
    ∃ first second, IsAddress site.base (lower "%2E%2e/..\\..".toList) (lower "Ü?#%2F".toList)
      first second (site.url (.ofCodes "%2E%2e/..\\.." "Ü?#%2F")) := by
  have hsource : IsKept "%2E%2e/..\\.." := by decide
  have htarget : IsKept "Ü?#%2F" := by decide
  have hsite : RateSite.ofText "http://rates.test:8080/api/v1/?key=1#top" =
      .ok ⟨⟨"http".toList, [], [], some (.name "rates.test".toList), some 8080,
        .rooted ["api".toList, "v1".toList, []], some "key=1".toList, some "top".toList⟩,
        rfl⟩ := rfl
  exact ⟨_, hsite, rfl, by decide, hsource, htarget, by decide,
    address_of_codes hsite rfl (by decide) hsource htarget (by decide)⟩

/-- Of a path of two empty segments the one at the end is dropped, and the other one does not stay
either: documents lie at the root. -/
theorem directory_of_double_slash : ∃ site, RateSite.ofText "http://rates.test//" = .ok site ∧
    site.base.isWeb = true ∧ site.base.path.segments = [[], []] ∧
    (site.url (.ofCodes "usd" "jpy")).path.text = "/usd/jpy.json".toList ∧
    ∀ first second, (site.url (.ofCodes "usd" "jpy")).path.segments ≠
      site.base.path.segments.dropLast ++ [first, second] := by
  refine ⟨⟨⟨"http".toList, [], [], some (.name "rates.test".toList), none, .rooted [[], []], none,
    none⟩, rfl⟩, rfl, rfl, rfl, rfl, fun first second h => ?_⟩
  have hlength := congrArg List.length h
  exact absurd (show 2 = 3 from hlength) (by decide)

/-! ### Pairs that share an address -/

/-- A code can stand in a query: it is not empty and has no white space. -/
@[mk_iff isToken_iff]
structure IsToken (code : String) : Prop where
  ne_empty : code ≠ ""
  notBlank : ∀ c ∈ code.toList, Text.isBlank c = false

instance : DecidablePred IsToken := fun code =>
  decidable_of_iff (code ≠ "" ∧ code.toList.all (!Text.isBlank ·) = true)
    (by simp [isToken_iff])

theorem IsToken.isKept {code : String} (h : IsToken code) : IsKept code := by
  intro c hc
  rw [Bool.eq_false_iff]
  intro hskipped
  have hblank := h.notBlank c hc
  rcases eq_of_isSkipped hskipped with rfl | rfl | rfl <;> exact absurd hblank (by decide)

/-- **Different pairs have different addresses, but for sources of dots.** Below a base of the web
two pairs of tokens have the same address, and are asked for with the same path and query, only if
they are the same pair or have one target and sources that are passed over. -/
theorem same_address_iff {text source target source' target' : String} {site : RateSite}
    (hsite : RateSite.ofText text = .ok site) (hweb : site.base.isWeb = true)
    (hsource : IsToken source) (htarget : IsToken target) (hsource' : IsToken source')
    (htarget' : IsToken target') :
    let p := CurrencyPair.ofCodes source target
    let q := CurrencyPair.ofCodes source' target'
    (site.url p = site.url q ↔ p = q ∨ p.target = q.target ∧ IsDots source ∧ IsDots source') ∧
      ((site.url p).target = (site.url q).target ↔
        p = q ∨ p.target = q.target ∧ IsDots source ∧ IsDots source') := by
  intro p q
  have hspecial := isSpecial_of_isWeb hweb
  have hp := url_eq p hspecial (lowerString_ne_empty hsource.ne_empty)
    (isKept_lowerString hsource.isKept) (isKept_lowerString htarget.isKept)
  have hq := url_eq q hspecial (lowerString_ne_empty hsource'.ne_empty)
    (isKept_lowerString hsource'.isKept) (isKept_lowerString htarget'.isKept)
  have hsegments : documentSegments p = documentSegments q ↔
      p = q ∨ p.target = q.target ∧ IsDots source ∧ IsDots source' := by
    rw [documentSegments_eq_iff]
    exact or_congr_right (and_congr_right' (and_congr isDots_lowerString_iff
      isDots_lowerString_iff))
  rw [← hsegments]
  have hurl (h : documentSegments p = documentSegments q) : site.url p = site.url q := by
    rw [hp, hq, addressSegments, addressSegments, h]
  have htext (h : (site.url p).target = (site.url q).target) :
      documentSegments p = documentSegments q := by
    rw [hp, hq] at h
    have hread := congrArg (segmentsOf true) (List.append_cancel_right h)
    rw [segmentsOf_address p hsite hspecial, segmentsOf_address q hsite hspecial] at hread
    exact List.append_cancel_left hread
  exact ⟨⟨fun h => htext (congrArg Url.target h), hurl⟩,
    htext, fun h => congrArg Url.target (hurl h)⟩

/-- Codes with slashes that would be run together if slashes were kept. -/
theorem same_address_of_slashes : ∃ site, RateSite.ofText "https://rates.test/v1/" = .ok site ∧
    site.base.isWeb = true ∧ IsToken "a/b" ∧ IsToken "c" ∧ IsToken "a" ∧ IsToken "b/c" ∧
    (site.url (.ofCodes "a/b" "c")).target ≠ (site.url (.ofCodes "a" "b/c")).target := by
  have hsite : RateSite.ofText "https://rates.test/v1/" =
      .ok ⟨⟨"https".toList, [], [], some (.name "rates.test".toList), none,
        .rooted ["v1".toList, []], none, none⟩, rfl⟩ := rfl
  have htoken : IsToken "a/b" ∧ IsToken "c" ∧ IsToken "a" ∧ IsToken "b/c" := by decide
  obtain ⟨hsource, htarget, hsource', htarget'⟩ := htoken
  refine ⟨_, hsite, rfl, hsource, htarget, hsource', htarget', fun h => ?_⟩
  have hsame := (same_address_iff hsite rfl hsource htarget hsource' htarget').2.mp h
  exact absurd hsame (by decide)

/-- The pairs of a point and of two points with one target are not the same, and have one
document. -/
theorem dots_share_address : ∃ site, RateSite.ofText "http://rates.test/v1" = .ok site ∧
    site.base.isWeb = true ∧ IsToken "." ∧ IsToken ".." ∧ IsToken "eur" ∧
    CurrencyPair.ofCodes "." "eur" ≠ CurrencyPair.ofCodes ".." "eur" ∧
    site.url (.ofCodes "." "eur") = site.url (.ofCodes ".." "eur") ∧
    (site.url (.ofCodes "." "eur")).target = "/v1/eur.json".toList := by
  exact ⟨⟨⟨"http".toList, [], [], some (.name "rates.test".toList), none, .rooted ["v1".toList],
    none, none⟩, rfl⟩, rfl, rfl, by decide, by decide, by decide, by decide, rfl, rfl⟩

end CurrencyDesk.RateSite
