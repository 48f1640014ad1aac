import CurrencyDesk.Proofs.Desk.Sequence
import CurrencyDesk.Proofs.Terminal.Lines
/-!
# Interactive use, line by line

Interactive use of a session is a run of queries at its office: one per line in front of the
first line that is no text, each in the state that the others have left. What is printed is
what the replies come to, one after the other, and what was asked for is what the queries ask
for; when there is a line that is no text the session ends with an error behind it, and all of
this stays (`runLines_append_texts`, `runLines_of_head`). So an input that ends in a line feed
can be followed by more in the same session or in the next one.

Key definitions: `Seen.printed`, `Session.afterSeen`, `ReadTexts`.
Key theorems: `runLines_append_texts`, `runLines_of_head`, `runLines_note`, `exists_readTexts`,
`printed_run_ofText`, `interactive_is_queries`.
-/

namespace CurrencyDesk

open Text

variable {σ : Type} {source : RateSource σ} {colors : Bool}

/-! ### A run of queries, printed -/

/-- What is printed of the replies to a line: nothing of a line that has no items, and
otherwise the items and a line feed. -/
def Seen.printed (colors : Bool) (seen : Seen) : String :=
  let items := Session.itemsOf seen.replies
  if items.isEmpty then "" else renderItems colors items ++ "\n"

/-- The query of a text. -/
def Turn.ofText (text : List Char) : Turn :=
  .call (.query (String.ofList text))

namespace Session

/-- The desk of a session with its source. -/
def office (s : Session σ) : Office σ :=
  ⟨s.desk, s.state⟩

/-- A session after turns that its office has taken. -/
def afterSeen (s : Session σ) (colors : Bool) (seen : List Seen) (o : Office σ) : Session σ where
  desk := o.desk
  state := o.state
  asked := s.asked ++ seen.flatMap (·.asked)
  console := { s.console with out := s.console.out ++ String.join (seen.map (·.printed colors)) }

@[simp] theorem office_afterSeen (s : Session σ) (seen : List Seen) (o : Office σ) :
    (s.afterSeen colors seen o).office = o := rfl

theorem afterSeen_nil (s : Session σ) : s.afterSeen colors [] s.office = s := by
  simp [afterSeen, office]

theorem afterSeen_cons (s : Session σ) (first : Seen) (seen : List Seen) (o o' : Office σ) :
    s.afterSeen colors (first :: seen) o' =
      (s.afterSeen colors [first] o).afterSeen colors seen o' := by
  simp [afterSeen, String.join_cons, String.append_assoc]

theorem afterSeen_singleton (s : Session σ) (seen : Seen) (o : Office σ) :
    s.afterSeen colors [seen] o =
      let next := { s with desk := o.desk, state := o.state, asked := s.asked ++ seen.asked }
      if (itemsOf seen.replies).isEmpty then next
      else next.print (renderItems colors (itemsOf seen.replies)) := by
  rcases hitems : itemsOf seen.replies with _ | ⟨item, items⟩
  · simp [afterSeen, Seen.printed, hitems]
  · simp [afterSeen, Seen.printed, hitems, print, String.append_assoc]

/-- A session does with a line of a text what its office does with the query. -/
theorem runLines_cons_encode (s : Session σ) (text : List Char) (lines : List (List UInt8)) :
    s.runLines source colors (Utf8.encode text :: lines) =
      (s.afterSeen colors [(s.office.take source (.ofText text)).1]
        (s.office.take source (.ofText text)).2).runLines source colors lines := by
  generalize hserved : s.desk.serve source s.state [.query (String.ofList text)] = served
  have hquery : s.query source (String.ofList text) = (itemsOf served.replies,
      { s with desk := served.desk, state := served.state, asked := s.asked ++ served.asked }) := by
    rw [query, hserved]
  have htake : s.office.take source (.ofText text) =
      (⟨served.replies, served.asked⟩, ⟨served.desk, served.state⟩) := by
    rw [office, Turn.ofText, Office.take, hserved]
  rw [runLines, Utf8.decode?_encode, htake, afterSeen_singleton]
  dsimp only
  rw [hquery]

/-- Lines of texts are served one after the other, before what follows them. -/
theorem runLines_append_texts (s : Session σ) (texts : List (List Char))
    (lines : List (List UInt8)) :
    s.runLines source colors (texts.map Utf8.encode ++ lines) =
      (s.afterSeen colors (s.office.run source (texts.map .ofText)).1
        (s.office.run source (texts.map .ofText)).2).runLines source colors lines := by
  induction texts generalizing s with
  | nil => rw [List.map_nil, List.map_nil, Office.run, afterSeen_nil, List.nil_append]
  | cons text texts ih =>
    rw [List.map_cons, List.map_cons, Office.run_cons, List.cons_append, runLines_cons_encode, ih,
      office_afterSeen, ← afterSeen_cons]

/-- A line that is no text ends a session, and without lines nothing is left to do. -/
theorem runLines_of_head (s : Session σ) {lines : List (List UInt8)}
    (h : ∀ line ∈ lines.head?, ¬ IsText line) :
    s.runLines source colors lines =
      (if lines = [] then .ok () else .error .unreadableInput, s) := by
  cases lines with
  | nil => rfl
  | cons line lines =>
    have hline : Utf8.decode? line = none :=
      Utf8.decode?_eq_none_iff.mpr fun text htext => h line rfl ⟨text, htext⟩
    rw [runLines, hline, if_neg (List.cons_ne_nil _ _)]

theorem office_note (s : Session σ) (note : String) : (s.note note).office = s.office := rfl

theorem afterSeen_note (s : Session σ) (note : String) (seen : List Seen) (o : Office σ) :
    (s.note note).afterSeen colors seen o = (s.afterSeen colors seen o).note note := rfl

theorem runLines_note (s : Session σ) (note : String) (lines : List (List UInt8)) :
    (s.note note).runLines source colors lines =
      ((s.runLines source colors lines).1, (s.runLines source colors lines).2.note note) := by
  induction lines generalizing s with
  | nil => rfl
  | cons line lines ih =>
    rcases hline : Utf8.decode? line with _ | text
    · -- a line that is no text ends both
      simp only [runLines, hline]
    · obtain rfl := Utf8.decode?_eq_some_iff.mp hline
      rw [runLines_cons_encode, runLines_cons_encode, office_note, afterSeen_note, ih]

end Session

/-! ### Lines of an input -/

/-- Texts are the lines of an input in front of its first line that is no text; nothing is
left unread if there is no such line. -/
structure ReadTexts (input : List UInt8) (texts : List (List Char)) (unread : List (List UInt8)) :
    Prop where
  lines : Session.HasLines input (texts.map Utf8.encode ++ unread)
  stops : ∀ line ∈ unread.head?, ¬ Session.IsText line

namespace Session

theorem exists_texts (lines : List (List UInt8)) :
    ∃ (texts : List (List Char)) (unread : List (List UInt8)),
      lines = texts.map Utf8.encode ++ unread ∧ ∀ line ∈ unread.head?, ¬ IsText line := by
  induction lines with
  | nil => exact ⟨[], [], rfl, by simp⟩
  | cons line lines ih =>
    by_cases hline : IsText line
    · obtain ⟨text, rfl⟩ := hline
      obtain ⟨texts, unread, rfl, hunread⟩ := ih
      exact ⟨text :: texts, unread, rfl, hunread⟩
    · exact ⟨[], line :: lines, rfl, by simpa using hline⟩

theorem exists_readTexts (input : List UInt8) : ∃ texts unread, ReadTexts input texts unread := by
  obtain ⟨texts, unread, hlines, hunread⟩ := exists_texts (inputLines input)
  exact ⟨texts, unread, hasLines_iff.mpr hlines, hunread⟩

/-- The lines of a text that ends in a line feed are texts, all of which are read before what
follows. -/
theorem exists_inputLines_feed (text : List Char) : ∃ texts : List (List Char), ∀ more,
    inputLines (Utf8.encode (text ++ ['\n']) ++ more) =
      texts.map Utf8.encode ++ inputLines more := by
  have hfeed (more : List UInt8) :
      Utf8.encode (text ++ ['\n']) ++ more = Utf8.encode text ++ 10 :: more := by
    rw [Utf8.encode_append, List.append_assoc]
    rfl
  obtain ⟨texts, unread, hlines, hunread⟩ :=
    exists_texts (inputLines (Utf8.encode (text ++ ['\n'])))
  have hread : unread = [] := by
    cases unread with
    | nil => rfl
    | cons line lines =>
      refine absurd (isText_of_mem_inputLines (s := text ++ ['\n']) ?_) (hunread line rfl)
      rw [hlines]
      simp
  refine ⟨texts, fun more => ?_⟩
  have hfirst := hfeed []
  rw [List.append_nil] at hfirst
  rw [hfeed, inputLines_append, ← hfirst, hlines, hread, List.append_nil]

end Session

/-! ### Lines that print nothing -/

section

variable {o : Office σ}

theorem printed_take_ofText_eq_empty_iff (h : o.Idle) (text : List Char) :
    (o.take source (.ofText text)).1.printed colors = "" ↔
      Request.parse? o.desk.settings (String.ofList text) = none := by
  rcases hp : Request.parse? o.desk.settings (String.ofList text) with _ | request
  · have he : (Call.query (String.ofList text)).errand? o.desk.settings = none := by
      rw [Call.errand?, hp, Option.map_none]
    rw [Turn.ofText, Office.take_call_of_no_errand source h he]
    simp [Seen.printed, Session.itemsOf, Reply.nothing]
  · have he : (Call.query (String.ofList text)).errand? o.desk.settings =
        some (.items request) := by
      rw [Call.errand?, hp, Option.map_some]
    rw [Turn.ofText, Office.take_call_of_errand source h he]
    simp [Seen.printed, Session.itemsOf, Errand.reply]

theorem printed_run_ofText (h : o.Idle) (source : RateSource σ) (colors : Bool)
    (texts : List (List Char)) :
    List.Forall₂ (fun text seen =>
        seen.printed colors = "" ↔ Request.parse? o.desk.settings (String.ofList text) = none)
      texts (o.run source (texts.map .ofText)).1 := by
  induction texts generalizing o with
  | nil => exact .nil
  | cons text texts ih =>
    have hrest := ih (h.take source (.ofText text))
    rw [show (o.take source (.ofText text)).2.desk.settings = _ from Office.settings_take_call h ..]
      at hrest
    exact .cons (printed_take_ofText_eq_empty_iff h text) hrest

end

/-- **Interactive use is one query per line.** The lines in front of the first one that is no
text are served one after the other, each as a query in the state that the others have left;
what they print is printed in order, where those print nothing that are no conversions, and
their questions are asked in order. The session fails exactly when there is a line that is no
text. And a text that ends in a line feed can be followed by more in the same session or in
the next one: but for the greeting that makes no difference. -/
theorem interactive_is_queries (source : RateSource σ) (colors : Bool) (s : Session σ)
    (input : List UInt8) :
    let greeting := Style.subtle.paint colors Session.greeting
    (∃ texts unread, ReadTexts input texts unread ∧
      let ran := (⟨s.desk, s.state⟩ : Office σ).run source (texts.map .ofText)
      s.runInteractive source colors input =
        (if unread = [] then .ok () else .error .unreadableInput,
          { desk := ran.2.desk
            state := ran.2.state
            asked := s.asked ++ ran.1.flatMap (·.asked)
            console :=
              { out := s.console.out ++ String.join (ran.1.map (·.printed colors))
                err := s.console.err ++ greeting ++ "\n" } }) ∧
      (s.desk.waiting = [] → List.Forall₂ (fun text seen => seen.printed colors = "" ↔
        Request.parse? s.desk.settings (String.ofList text) = none) texts ran.1)) ∧
    ∀ (text : List Char) (more : List UInt8),
      let first := s.runInteractive source colors (Utf8.encode (text ++ ['\n']))
      let whole := s.runInteractive source colors (Utf8.encode (text ++ ['\n']) ++ more)
      first.1 = .ok () ∧
        first.2.runInteractive source colors more = (whole.1, whole.2.note greeting) := by
  intro greeting
  constructor
  · obtain ⟨texts, unread, hread⟩ := Session.exists_readTexts input
    have hprinted (hidle : s.office.Idle) := printed_run_ofText hidle source colors texts
    refine ⟨texts, unread, hread, ?_, hprinted⟩
    rw [Session.runInteractive, Session.hasLines_iff.mp hread.lines, Session.runLines_append_texts,
      Session.runLines_of_head _ hread.stops]
    rfl
  · intro text more
    obtain ⟨texts, hlines⟩ := Session.exists_inputLines_feed text
    have hfirst :
        Session.inputLines (Utf8.encode (text ++ ['\n'])) = texts.map Utf8.encode ++ [] := by
      have := hlines []
      rwa [List.append_nil] at this
    simp only [Session.runInteractive, hlines, hfirst, Session.runLines_append_texts]
    exact ⟨rfl, Session.runLines_note ..⟩

-- the rate is kept from line to line, and a line that is no text leaves what was printed
example :
    let s : Session Prepared :=
      { desk := .fresh (.byDefault "USD") 10, state := [(⟨"usd", "eur"⟩, [⟨0, .ok (.ofInt 2)⟩])] }
    let input := Utf8.encode "1 usd to eur\r\n\nhello\n3 usd to eur\n".toList ++ [0xFF, 10] ++
      Utf8.encode "4 usd to eur".toList
    let ended := s.runInteractive Prepared.source false input
    (ended.1 = .error .unreadableInput) ∧ (ended.2.asked, ended.2.console.out) =
      ([⟨"usd", "eur"⟩],
        "2 EUR\n  Currency conversion from USD to EUR\n" ++
          "6 EUR\n  Currency conversion from USD to EUR\n") := by
  decide +kernel

end CurrencyDesk
