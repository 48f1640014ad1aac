import CurrencyDesk.Proofs.Desk.Transcript
import CurrencyDesk.Proofs.Query.Language
import CurrencyDesk.Proofs.Remote.Address
import CurrencyDesk.Proofs.Remote.Answers
import CurrencyDesk.Proofs.Text.Lower
/-!
# Codes are lowered once

A query lowers the codes that it is given, and so does the pair that a rate is looked up by.
What the second of them does is nothing: a pair of codes in lower case is made of these codes
(`ofCodes_ofCodes`). So the codes of a query are the key of its rate in the cache, what the
source is asked for, the segments of a document's address and the name of its member
(`Request.GoesByItsCodes`).

Codes that differ in the case of letters of ASCII are one code, whatever other characters they
have and whatever stands around the letters, and a rate that was stored for one spelling is
served to the other.

Key definitions: `Request.GoesByItsCodes`.
Key theorems: `CurrencyPair.ofCodes_ofCodes`, `CurrencyPair.ofCodes_congr`,
`Request.goesByItsCodes_of_parse?`, `CurrencyPair.codes_are_lowered_once`.
-/

namespace CurrencyDesk

open Text (SameLetters lowerString)

/-! ### Pairs of codes -/

namespace CurrencyPair

theorem ofCodes_ofCodes (source target : String) :
    ofCodes (ofCodes source target).source (ofCodes source target).target =
      ofCodes source target := by
  simp only [ofCodes, Text.lowerString_lowerString]

theorem lowerString_congr {code code' : String} (h : SameLetters code.toList code'.toList) :
    lowerString code = lowerString code' := by
  rw [lowerString, h.lower_eq, lowerString]

theorem ofCodes_congr {source target source' target' : String}
    (hsource : SameLetters source.toList source'.toList)
    (htarget : SameLetters target.toList target'.toList) :
    ofCodes source target = ofCodes source' target' := by
  rw [ofCodes, lowerString_congr hsource, lowerString_congr htarget, ofCodes]

end CurrencyPair

/-! ### The codes of a query -/

namespace Request

/-- The codes of a request, as they are. -/
def pair (request : Request) : CurrencyPair :=
  ⟨request.source, request.target⟩

/-- A request goes by its codes as they are, when it is converted and when items are shown. -/
structure GoesByItsCodes (request : Request) : Prop where
  /-- A fresh entry of the codes is what it is answered from. -/
  read : ∀ (d : Desk) (call : Call) (errand : Errand) (rate : Binary64),
    errand ∈ [.conversion request, .items request] → call.errand? d.settings = some errand →
    d.cache.fresh? d.now request.pair = some rate →
      (d.step (.call call)).2 = [.replied d.opened (errand.reply (.ok rate))]
  /-- When there is none, the source is asked for the codes. -/
  asked : ∀ (d : Desk) (call : Call) (errand : Errand),
    errand ∈ [.conversion request, .items request] → call.errand? d.settings = some errand →
    d.cache.fresh? d.now request.pair = none →
      (d.step (.call call)).2 = [.asked d.opened request.pair]
  /-- The rate that comes is stored for the codes. -/
  stored : ∀ (d : Desk) (number : Nat) (errand : Errand) (rate : Binary64),
    errand ∈ [.conversion request, .items request] → d.waiting.lookup number = some errand →
      (d.step (.answer number (.ok rate))).1.cache = d.cache.store d.now request.pair rate
  /-- A site puts the codes on its path. -/
  pushed : ∀ site : RateSite, site.url request.pair =
    RateSite.pushSegment (request.target ++ ".json") (RateSite.pushSegment request.source
      { site.base with path := site.base.path.withoutEmptyEnd })
  /-- So they are what the segments stand for, unless they have characters that an address
  leaves out or the source is passed over. -/
  segments : ∀ site : RateSite, site.base.isWeb = true → request.source ≠ "" →
    RateSite.IsKept request.source → RateSite.IsKept request.target →
    ¬RateSite.IsDots request.source → ∃ first second,
      (site.url request.pair).path.segments =
        RateSite.directory site.base.path.segments ++ [first, second] ∧
      Url.unescape first = Text.Utf8.encode request.source.toList ∧
      Url.unescape second = Text.Utf8.encode (request.target ++ ".json").toList
  /-- The member that is read from the document has the code for its name. -/
  told : ∀ (site : RateSite) (send : Transport), Tells request.target.toList
    (site.exchange send request.pair).result (site.rate send request.pair)

section

variable {request : Request}

theorem ofCodes_of_parse? {settings : Settings} {text : String}
    (h : parse? settings text = some request) :
    CurrencyPair.ofCodes request.source request.target = request.pair := by
  obtain ⟨word, -, ⟨-, hsource, htarget⟩ | ⟨source, connective, target, -, hsource, htarget⟩⟩ :=
    ofWords?_eq_some_iff.mp h
  · rw [pair, hsource, htarget]
    exact CurrencyPair.ofCodes_ofCodes _ _
  · rw [pair, hsource, htarget]
    exact CurrencyPair.ofCodes_ofCodes _ _

theorem pair_of_mem_errands (h : CurrencyPair.ofCodes request.source request.target = request.pair)
    {errand : Errand} (herrand : errand ∈ [.conversion request, .items request]) :
    errand.pair = request.pair := by
  simp only [List.mem_cons, List.not_mem_nil, or_false] at herrand
  rcases herrand with rfl | rfl <;> exact h

/-- A request whose codes are in lower case goes by them. -/
theorem goesByItsCodes_of_ofCodes
    (h : CurrencyPair.ofCodes request.source request.target = request.pair) :
    request.GoesByItsCodes where
  read d call errand rate hmem herrand hfresh := by
    rw [← pair_of_mem_errands h hmem] at hfresh
    rw [d.step_call_of_fresh herrand hfresh]
  asked d call errand hmem herrand hfresh := by
    rw [← pair_of_mem_errands h hmem] at hfresh
    rw [d.step_call_of_not_fresh herrand hfresh, pair_of_mem_errands h hmem]
  stored d number errand rate hmem hwaiting := by
    rw [d.step_answer_of_waiting hwaiting, pair_of_mem_errands h hmem]
  pushed site := rfl
  segments site hweb hne hsource htarget hdots := by
    refine ⟨_, _, ?_, RateSite.unescape_codeSegment _, RateSite.unescape_codeSegment _⟩
    have hdocument : RateSite.documentSegments request.pair =
        [RateSite.codeSegment request.source,
          RateSite.codeSegment (request.target ++ ".json")] := by
      rw [RateSite.documentSegments, pair, if_neg hdots, List.singleton_append]
    rw [RateSite.url_eq request.pair (RateSite.isSpecial_of_isWeb hweb) hne hsource htarget,
      ← hdocument]
    rfl
  told site send := tells_rateInExchange request.target _

end

theorem goesByItsCodes_of_parse? {settings : Settings} {text : String} {request : Request}
    (h : parse? settings text = some request) : request.GoesByItsCodes :=
  goesByItsCodes_of_ofCodes (ofCodes_of_parse? h)

end Request

/-- **Codes are lowered once, and spellings share an entry.** The pair of the codes of a pair is
this pair, for all texts; so the codes of a query are those of the cache, of the source, of the
address and of the document. Codes that differ in the case of letters of ASCII make up one
pair, and a lookup of one spelling is served from the entry of the other. -/
theorem CurrencyPair.codes_are_lowered_once :
    (∀ source target, let pair := ofCodes source target
      ofCodes pair.source pair.target = pair) ∧
    (∀ settings text request, Request.parse? settings text = some request →
      request.GoesByItsCodes) ∧
    ∀ source target source' target', SameLetters source.toList source'.toList →
      SameLetters target.toList target'.toList →
      ofCodes source target = ofCodes source' target' ∧
      ∀ (d : Desk) (entry : CacheEntry), d.cache.stored? (ofCodes source target) = some entry →
        entry.age d.now < d.cache.validity →
        (d.step (.call (.rate source' target'))).2 =
          [.replied d.opened (.rate (.ok entry.rate))] := by
  refine ⟨ofCodes_ofCodes, fun settings text request => Request.goesByItsCodes_of_parse?, ?_⟩
  intro source target source' target' hsource htarget
  have hpair := ofCodes_congr hsource htarget
  refine ⟨hpair, fun d entry hstored hage => ?_⟩
  have herrand : (Call.rate source' target').errand? d.settings =
      some (.rate (ofCodes source' target')) := rfl
  have hfresh : d.cache.fresh? d.now (ofCodes source' target') = some entry.rate := by
    rw [RateCache.fresh?, ← hpair, hstored, Option.filter_some, RateCache.isFresh,
      if_pos (decide_eq_true hage), Option.map_some]
  rw [d.step_call_of_fresh herrand hfresh]
  rfl

-- a sigma before a letter, one at the end, and one at the end behind a raised letter, which is
-- looked through; and the two characters of a dotted capital
example :
    CurrencyPair.ofCodes "aΣΣ-\u0130" "U\uA7F1Σ" = ⟨"aσς-i\u0307", "u\uA7F1ς"⟩ ∧
      SameLetters "aΣΣ-\u0130".toList "AΣΣ-\u0130".toList := by
  decide +kernel

end CurrencyDesk
