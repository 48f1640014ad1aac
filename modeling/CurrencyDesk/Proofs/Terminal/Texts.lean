import CurrencyDesk.Proofs.Desk.Service
import CurrencyDesk.Proofs.Text.Trim
import CurrencyDesk.Terminal.Program
/-!
# The texts of a query on the command line

The text of a query may be given in several arguments, which are joined by single blanks. As it is
read by its words, only the words of the arguments count, one argument after the other
(`words_intercalate`): not how they are spread over arguments, nor what else is blank in them. So
texts with the same words are the same query for a desk, and a run with the one ends like a run
with the other: with the same code and output, and after the same questions to the source. Only
the message of a failure may quote the text as it was given (`Failure.AlikeFor`).

Key definitions: `SameWords`, `Arguments.AsksFor`, `Failure.AlikeFor`, `Finish.AlikeFor`.
Key theorems: `words_intercalate`, `SameWords.join`, `Arguments.read_of_asksFor`,
`Surroundings.run_alikeFor`, `query_counts_by_words`.
-/

namespace CurrencyDesk

open Text (AllBlank words)

/-! ### The words of joined texts -/

/-- The words of texts joined by blanks are those of the texts, one after the other. -/
theorem words_intercalate : ∀ texts : List String,
    words (" ".intercalate texts).toList = texts.flatMap (words ·.toList)
  | [] => rfl
  | [text] => by simp
  | text :: next :: texts => by
    have hblank : Text.isBlank ' ' = true := by decide
    have hjoined : (" ".intercalate (text :: next :: texts)).toList =
        text.toList ++ ' ' :: (" ".intercalate (next :: texts)).toList := by
      simp
    rw [hjoined, Text.words_append_cons hblank, words_intercalate (next :: texts),
      List.flatMap_cons (x := text)]

/-- Texts have the same words, one text after the other. -/
def SameWords (texts texts' : List String) : Prop :=
  texts.flatMap (words ·.toList) = texts'.flatMap (words ·.toList)

instance (texts texts' : List String) : Decidable (SameWords texts texts') :=
  inferInstanceAs (Decidable (texts.flatMap (words ·.toList) = texts'.flatMap (words ·.toList)))

namespace SameWords

theorem join (before part after : List String) :
    SameWords (before ++ part ++ after) (before ++ [" ".intercalate part] ++ after) := by
  simp only [SameWords, List.flatMap_append, List.flatMap_singleton, words_intercalate]

theorem insert_blank (before after : List String) {blank : String} (h : AllBlank blank.toList) :
    SameWords (before ++ after) (before ++ blank :: after) := by
  have hcut : Text.Cut (blank.toList ++ []) [] := .blanks h .nil
  rw [List.append_nil] at hcut
  rw [SameWords, List.flatMap_append, List.flatMap_append, List.flatMap_cons,
    Text.words_of_cut hcut, List.nil_append]

theorem parse?_eq {texts texts' : List String} (h : SameWords texts texts') (settings : Settings) :
    Request.parse? settings (" ".intercalate texts) =
      Request.parse? settings (" ".intercalate texts') := by
  rw [Request.parse?, Request.parse?, words_intercalate, words_intercalate, h]

end SameWords

/-! ### What texts of one request come to -/

section

variable {text text' : String}

/-- Two failures are the same, or each quotes a text of its own. -/
inductive Failure.AlikeFor (text text' : String) : Failure → Failure → Prop
  | same (failure : Failure) : AlikeFor text text' failure failure
  | notAConversion : AlikeFor text text' (.notAConversion text) (.notAConversion text')
  | conversionFailed : AlikeFor text text' (.conversionFailed text) (.conversionFailed text')

/-- Two results are successes, or failures that are alike. -/
inductive ResultsAlike (text text' : String) : (result result' : Except Failure Unit) → Prop
  | ok : ResultsAlike text text' (.ok ()) (.ok ())
  | error {failure failure' : Failure} : Failure.AlikeFor text text' failure failure' →
      ResultsAlike text text' (.error failure) (.error failure')

/-- Two outcomes have results that are alike, and are the same in all else. -/
structure Outcome.AlikeFor (text text' : String) (outcome outcome' : Outcome) : Prop where
  result : ResultsAlike text text' outcome.result outcome'.result
  console : outcome.console = outcome'.console
  asked : outcome.asked = outcome'.asked
  files : outcome.files = outcome'.files

/-- Two runs end in the same way, but for a text that the message of a failure quotes. -/
structure Finish.AlikeFor (text text' : String) (finish finish' : Finish) : Prop where
  code : finish.code = finish'.code
  out : finish.console.out = finish'.console.out
  asked : finish.asked = finish'.asked
  files : finish.files = finish'.files
  err : finish.console.err = finish'.console.err ∨
    ∃ noted failure failure', Failure.AlikeFor text text' failure failure' ∧
      finish.console.err = noted ++ "Error: " ++ failure.message ++ "\n" ∧
      finish'.console.err = noted ++ "Error: " ++ failure'.message ++ "\n"

theorem Outcome.AlikeFor.refl (text text' : String) (outcome : Outcome) :
    Outcome.AlikeFor text text' outcome outcome where
  result := by
    rcases outcome.result with failure | ⟨⟩
    · exact .error (.same failure)
    · exact .ok
  console := rfl
  asked := rfl
  files := rfl

theorem Outcome.AlikeFor.finish {outcome outcome' : Outcome}
    (h : Outcome.AlikeFor text text' outcome outcome') :
    Finish.AlikeFor text text' (Surroundings.finish outcome) (Surroundings.finish outcome') := by
  obtain ⟨result, console, asked, files⟩ := outcome
  obtain ⟨result', console', asked', files'⟩ := outcome'
  obtain ⟨hresult, rfl, rfl, rfl⟩ := h
  cases hresult with
  | ok => exact ⟨rfl, rfl, rfl, rfl, .inl rfl⟩
  | error hfailure => exact ⟨rfl, rfl, rfl, rfl, .inr ⟨console.err, _, _, hfailure, rfl, rfl⟩⟩

namespace Session

variable {σ : Type} {s : Session σ}

theorem query_congr (source : RateSource σ)
    (h : Request.parse? s.desk.settings text = Request.parse? s.desk.settings text') :
    s.query source text = s.query source text' := by
  have herrand : (Call.query text).errand? s.desk.settings =
      (Call.query text').errand? s.desk.settings := by
    rw [Call.errand?, Call.errand?, h]
  rw [query, query, Desk.serve_congr herrand]

theorem runQuery_alikeFor (source : RateSource σ)
    (h : Request.parse? s.desk.settings text = Request.parse? s.desk.settings text')
    (colors raw : Bool) :
    ResultsAlike text text' (s.runQuery source colors text raw).1
        (s.runQuery source colors text' raw).1 ∧
      (s.runQuery source colors text raw).2 = (s.runQuery source colors text' raw).2 := by
  rw [runQuery, runQuery, query_congr source h]
  obtain ⟨items, after⟩ := s.query source text'
  cases items with
  | nil => exact ⟨.error .notAConversion, rfl⟩
  | cons first items =>
    cases raw with
    | false => exact ⟨.ok, rfl⟩
    | true =>
      rcases hcopies : first.copies with _ | amount
      · simp only [hcopies, ↓reduceIte]
        exact ⟨.error .conversionFailed, trivial⟩
      · simp only [hcopies, ↓reduceIte]
        exact ⟨.ok, trivial⟩

end Session

namespace Surroundings

variable {w : Surroundings}

theorem convert_alikeFor
    (h : ∀ settings, Request.parse? settings text = Request.parse? settings text')
    (raw : Bool) (path : Option String) :
    Outcome.AlikeFor text text' (w.convert (.query text raw) path)
      (w.convert (.query text' raw) path) := by
  rcases hconfig : w.config path with failure | config
  · simp only [convert, hconfig]
    exact .refl text text' _
  · simp only [convert, hconfig, convertWith]
    rcases w.source config with failure | source
    · exact .refl text text' _
    · have halike :=
        Session.runQuery_alikeFor source (h (w.session config).desk.settings) w.colors raw
      rcases hrun : (w.session config).runQuery source w.colors text raw with ⟨result, after⟩
      rcases hrun' : (w.session config).runQuery source w.colors text' raw with ⟨result', after'⟩
      rw [hrun, hrun'] at halike
      obtain ⟨hresult, rfl⟩ := halike
      simp only [perform, hrun, hrun']
      exact ⟨hresult, rfl, rfl, rfl⟩

end Surroundings

end

/-! ### Texts in the arguments -/

/-- Arguments ask for a query of texts: these are all that is left behind the switches of the
query, which stands behind those of the program. -/
def Arguments.AsksFor (arguments texts : List String) (raw : Bool) (path : Option String) : Prop :=
  texts ≠ [] ∧ ∃ front given behind escaped,
    SwitchPlace.front.take {} false arguments = .ok ⟨front, "query" :: behind, false⟩ ∧
    SwitchPlace.query.take {} false behind = .ok ⟨given, texts, escaped⟩ ∧
    raw = given.raw ∧ path = given.configPath.or front.configPath

theorem Arguments.read_of_asksFor {arguments texts : List String} {raw : Bool}
    {path : Option String} (h : AsksFor arguments texts raw path) :
    read arguments = .ok ⟨.query (" ".intercalate texts) raw, path⟩ := by
  obtain ⟨hne, front, given, behind, escaped, hfront, hquery, rfl, rfl⟩ := h
  simp [read, hfront, readCommand, readQuery, hquery, hne]

/-- Any texts can be given behind two hyphens alone. -/
theorem Arguments.asksFor_escaped {texts : List String} (h : texts ≠ []) :
    AsksFor ("query" :: "--" :: texts) texts false none :=
  ⟨h, {}, {}, "--" :: texts, true, rfl, rfl, rfl, rfl⟩

/-- Runs with texts of the same words end alike. -/
theorem Surroundings.run_alikeFor {texts texts' arguments arguments' : List String} {raw : Bool}
    {path : Option String} (hwords : SameWords texts texts')
    (h : Arguments.AsksFor arguments texts raw path)
    (h' : Arguments.AsksFor arguments' texts' raw path) (w : Surroundings) :
    Finish.AlikeFor (" ".intercalate texts) (" ".intercalate texts') (w.run arguments)
      (w.run arguments') := by
  simp only [run, obey, Arguments.read_of_asksFor h, Arguments.read_of_asksFor h']
  exact (convert_alikeFor hwords.parse?_eq raw path).finish

/-- **How a query is split into arguments does not matter.** Any texts can be given on the command
line. To join some of them, or to put in one that is blank, does not change their words; and all
texts with the same words, joined by single blanks, are one request or none, have the same items
after the same questions, and are the same to a run, but for a message that quotes them. -/
theorem query_counts_by_words :
    (∀ texts, texts ≠ [] → Arguments.AsksFor ("query" :: "--" :: texts) texts false none) ∧
    (∀ before part after,
      SameWords (before ++ part ++ after) (before ++ [" ".intercalate part] ++ after)) ∧
    (∀ before blank after, AllBlank blank.toList →
      SameWords (before ++ after) (before ++ blank :: after)) ∧
    ∀ texts texts', SameWords texts texts' →
      (∀ settings, Request.parse? settings (" ".intercalate texts) =
        Request.parse? settings (" ".intercalate texts')) ∧
      (∀ {σ : Type} (source : RateSource σ) (s : Session σ),
        s.query source (" ".intercalate texts) = s.query source (" ".intercalate texts')) ∧
      ∀ (w : Surroundings) (arguments arguments' : List String) (raw : Bool) (path : Option String),
        Arguments.AsksFor arguments texts raw path → Arguments.AsksFor arguments' texts' raw path →
          Finish.AlikeFor (" ".intercalate texts) (" ".intercalate texts') (w.run arguments)
            (w.run arguments') := by
  refine ⟨fun texts h => Arguments.asksFor_escaped h, SameWords.join,
    fun before blank after h => SameWords.insert_blank before after h, fun texts texts' h => ?_⟩
  refine ⟨h.parse?_eq, fun source s => Session.query_congr source (h.parse?_eq _), ?_⟩
  intro w arguments arguments' raw path hasks hasks'
  exact Surroundings.run_alikeFor h hasks hasks' w

/-- A place with a configuration file that says nothing, and a host that knows one rate. -/
def oneRate : Surroundings where
  files := ⟨[(["rates.yaml"], .file [])]⟩
  network := fun _ _ =>
    .ok { status := 200, body := .ok (Text.Utf8.encode "\x7b\"jpy\":110.25\x7d".toList) }

/-- A query in four arguments, one of them empty and one with an ideographic space, ends like the
same query in quotes. -/
theorem query_counts_by_words_of_quoted :
    let texts := ["10", "", "usd\u3000to", " jpy"]
    let arguments := ["-c", "rates.yaml", "query", "-r"] ++ texts
    let arguments' := ["query", "--raw", "--config-path=rates.yaml", "--", "10 usd to jpy"]
    Arguments.AsksFor ("query" :: "--" :: texts) texts false none ∧
    SameWords ["10", "usd to", "jpy"] ["10", "\t", "usd to", "jpy"] ∧
    SameWords texts ["10 usd to jpy"] ∧
    Arguments.AsksFor arguments texts true (some "rates.yaml") ∧
    Arguments.AsksFor arguments' ["10 usd to jpy"] true (some "rates.yaml") ∧
    (oneRate.run arguments).console.out = "1102.5\n" ∧
    (oneRate.run arguments').console.out = "1102.5\n" := by
  intro texts arguments arguments'
  obtain ⟨hgiven, -, hblank, hsame⟩ := query_counts_by_words
  have htexts : texts ≠ [] := List.cons_ne_nil _ _
  have hwords : SameWords texts ["10 usd to jpy"] := by decide +kernel
  have hasks : Arguments.AsksFor arguments texts true (some "rates.yaml") :=
    ⟨htexts, { configPath := some "rates.yaml" }, { raw := true }, "-r" :: texts, false, rfl, rfl,
      rfl, rfl⟩
  have hasks' : Arguments.AsksFor arguments' ["10 usd to jpy"] true (some "rates.yaml") :=
    ⟨List.cons_ne_nil _ _, {}, { raw := true, configPath := some "rates.yaml" },
      ["--raw", "--config-path=rates.yaml", "--", "10 usd to jpy"], true, rfl, rfl, rfl, rfl⟩
  obtain ⟨-, -, hruns⟩ := hsame texts ["10 usd to jpy"] hwords
  have halike := hruns oneRate arguments arguments' true (some "rates.yaml") hasks hasks'
  have hout : (oneRate.run arguments).console.out = "1102.5\n" := by decide +kernel
  exact ⟨hgiven texts htexts, hblank ["10"] "\t" ["usd to", "jpy"] (by decide), hwords, hasks,
    hasks', hout, halike.out ▸ hout⟩

end CurrencyDesk
