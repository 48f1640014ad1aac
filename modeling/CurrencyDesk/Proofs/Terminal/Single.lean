import CurrencyDesk.Proofs.Amount.ReadBack
import CurrencyDesk.Proofs.Desk.Outcome
import CurrencyDesk.Terminal.Session
/-!
# Single queries, with the plain amount and with the items

A single query does the same to its session whether the plain amount or the items are wanted: the
same questions are asked, and desk and source are left in the same state. What is printed and how
it ends is told by three cases (`Ends`). A text that is no conversion fails in the same way. When
the lookup of the rate fails, or the product is not finite, the plain amount fails and prints
nothing, and the items show the failure. Otherwise the line of the plain amount is what the first
line of the items begins with.

Key definitions: `Session.Finds`, `Session.Ends`.
Key theorems: `Session.exists_query_eq`, `Session.raw_and_plain_agree`.
-/

namespace CurrencyDesk

theorem ConvertedAmount.newline_not_mem_text (x : Binary64.Finite) :
    '\n' ∉ (ConvertedAmount.ofFinite x).text.toList := by
  obtain ⟨_, _, _, hwritten, -⟩ := ConvertedAmount.exists_readBack x
  intro hmem
  rw [ConvertedAmount.text, String.toList_ofList] at hmem
  rcases hwritten.mem hmem with hdigit | hminus | hpoint
  · exact absurd hdigit (by decide)
  · exact absurd hminus (by decide)
  · exact absurd hpoint (by decide)

namespace Session

variable {σ : Type}

/-- A lookup of the pair of a request finds a rate or fails. -/
def Finds (source : RateSource σ) (s : Session σ) (request : Request)
    (found : Except LookupError Binary64) : Prop :=
  (s.desk.serve source s.state [.rate request.source request.target]).replies = [.rate found]

/-- How a query of a text ends and what it prints, with the plain amount (`raw`) and with the items
without colours (`plain`). -/
inductive Ends (source : RateSource σ) (s : Session σ) (text : String) :
    (raw plain : Except Failure Unit × String) → Prop
  /-- The text is no conversion. -/
  | ignored : Request.parse? s.desk.settings text = none →
      Ends source s text (.error (.notAConversion text), "") (.error (.notAConversion text), "")
  /-- Nothing is found, or the product is not finite. -/
  | failed {request : Request} {found : Except LookupError Binary64} :
      Request.parse? s.desk.settings text = some request → s.Finds source request found →
      ((∃ error, found = .error error) ∨
        ∃ rate, found = .ok rate ∧ (request.amount.mul rate).isFinite = false) →
      Ends source s text (.error (.conversionFailed text), "")
        (.ok (), "Something went wrong.\n  Please try again.\n")
  /-- The request is converted to an amount, which is on one line. -/
  | converted {request : Request} {rate : Binary64} {product : Binary64.Finite} {amount : String} :
      Request.parse? s.desk.settings text = some request → s.Finds source request (.ok rate) →
      request.amount.mul rate = .finite product → amount = (ConvertedAmount.ofFinite product).text →
      '\n' ∉ amount.toList →
      Ends source s text (.ok (), amount ++ "\n")
        (.ok (), amount ++ " " ++ Text.upperString request.target ++ "\n  " ++
          ("Currency conversion from " ++ Text.upperString request.source ++ " to " ++
            Text.upperString request.target) ++ "\n")

/-- A session that has printed more. -/
def printing (s : Session σ) (more : String) : Session σ :=
  { s with console := { s.console with out := s.console.out ++ more } }

theorem print_eq (s : Session σ) (line : String) : s.print line = s.printing (line ++ "\n") := by
  simp [print, printing, String.append_assoc]

theorem printing_empty (s : Session σ) : s.printing "" = s := by
  simp [printing]

section

variable {source : RateSource σ} {s : Session σ} {text : String} {request : Request}

/-! ### The items of a query -/

theorem query_eq_nil (hnew : s.desk.waiting.lookup s.desk.opened = none)
    (hp : Request.parse? s.desk.settings text = none) : (s.query source text).1 = [] := by
  have he : (Call.query text).errand? s.desk.settings = none := by
    rw [Call.errand?, hp, Option.map_none]
  simp [query, serve_of_no_errand hnew he, itemsOf, Reply.nothing]

/-- The items of a query for a conversion are what the lookup of its pair leads to. -/
theorem exists_query_eq (source : RateSource σ)
    (hnew : s.desk.waiting.lookup s.desk.opened = none)
    (hp : Request.parse? s.desk.settings text = some request) :
    ∃ found, s.Finds source request found ∧
      (s.query source text).1 = [Item.ofResult (Conversion.make request found)] := by
  have he : (Call.query text).errand? s.desk.settings = some (.items request) := by
    rw [Call.errand?, hp, Option.map_some]
  have hrate : (Call.rate request.source request.target).errand? s.desk.settings =
      some (.rate (.ofCodes request.source request.target)) := rfl
  refine ⟨(s.desk.lookUp source s.state (.ofCodes request.source request.target)).result, ?_, ?_⟩
  · rw [Finds, serve_of_errand hnew hrate]
    rfl
  · rw [query, serve_of_errand hnew he]
    rfl

/-! ### What is printed of the items -/

theorem runQuery_of_nil (h : (s.query source text).1 = []) (colors raw : Bool) :
    s.runQuery source colors text raw =
      (.error (.notAConversion text), (s.query source text).2) := by
  simp [runQuery, h]

theorem runQuery_items {item : Item} (h : (s.query source text).1 = [item]) (colors : Bool) :
    s.runQuery source colors text false =
      (.ok (), (s.query source text).2.printing (item.render colors ++ "\n")) := by
  simp [runQuery, h, renderItems, print_eq]

theorem runQuery_raw_of_copies {item : Item} {amount : String}
    (h : (s.query source text).1 = [item]) (hcopies : item.copies = some amount) (colors : Bool) :
    s.runQuery source colors text true =
      (.ok (), (s.query source text).2.printing (amount ++ "\n")) := by
  simp [runQuery, h, hcopies, print_eq]

theorem runQuery_raw_of_copies_nothing {item : Item} (h : (s.query source text).1 = [item])
    (hcopies : item.copies = none) (colors : Bool) :
    s.runQuery source colors text true =
      (.error (.conversionFailed text), (s.query source text).2) := by
  simp [runQuery, h, hcopies]

/-! ### Both ways to query -/

theorem found_cases (request : Request) (found : Except LookupError Binary64) :
    ((∃ error, found = .error error) ∨
      ∃ rate, found = .ok rate ∧ (request.amount.mul rate).isFinite = false) ∨
    ∃ rate product, found = .ok rate ∧ request.amount.mul rate = .finite product := by
  rcases found with error | rate
  · exact .inl (.inl ⟨error, rfl⟩)
  · rcases hproduct : request.amount.mul rate with _ | negative | product
    · exact .inl (.inr ⟨rate, rfl, by rw [hproduct]; rfl⟩)
    · exact .inl (.inr ⟨rate, rfl, by rw [hproduct]; rfl⟩)
    · exact .inr ⟨rate, product, rfl, hproduct⟩

/-- The item of a conversion, without colours, begins with the amount that it copies. -/
theorem render_shown (request : Request) (amount : String) :
    (request.shown amount).render false =
      amount ++ " " ++ Text.upperString request.target ++ "\n  " ++
        ("Currency conversion from " ++ Text.upperString request.source ++ " to " ++
          Text.upperString request.target) :=
  rfl

theorem exists_ends (source : RateSource σ) (hnew : s.desk.waiting.lookup s.desk.opened = none)
    (colors : Bool) (text : String) :
    ∃ raw plain, Ends source s text raw plain ∧
      s.runQuery source colors text true = (raw.1, (s.query source text).2.printing raw.2) ∧
      s.runQuery source false text false = (plain.1, (s.query source text).2.printing plain.2) := by
  rcases hp : Request.parse? s.desk.settings text with _ | request
  · refine ⟨_, _, .ignored hp, ?_, ?_⟩ <;>
      rw [runQuery_of_nil (query_eq_nil hnew hp), printing_empty]
  · obtain ⟨found, hfound, hitems⟩ := exists_query_eq source hnew hp
    rcases found_cases request found with hfailed | ⟨rate, product, rfl, hproduct⟩
    · rw [ofResult_make_eq_failure_iff.mpr hfailed] at hitems
      refine ⟨_, _, .failed hp hfound hfailed, ?_, ?_⟩
      · rw [runQuery_raw_of_copies_nothing hitems rfl, printing_empty]
      · rw [runQuery_items hitems]
        rfl
    · rw [ofResult_make_of_finite hproduct] at hitems
      have hline := ConvertedAmount.newline_not_mem_text product
      refine ⟨_, _, .converted hp hfound hproduct rfl hline, ?_, ?_⟩
      · rw [runQuery_raw_of_copies hitems rfl]
      · rw [runQuery_items hitems, render_shown]

end

/-- **The plain amount and the items agree.** From every state that a desk gets into, with calls in
flight or without, a query for the plain amount and one for the items without colours do the same
work, so that they have the same questions asked and leave the same desk and source, and they end
in one of three ways. The plain amount is printed only when it is the one that the items show. -/
theorem raw_and_plain_agree (source : RateSource σ) (state : σ) (settings : Settings)
    (validity : Nat) (events : List Desk.Event) (asked : List CurrencyPair) (console : Console)
    (colors : Bool) (text : String) :
    let s : Session σ := ⟨((Desk.fresh settings validity).run events).1, state, asked, console⟩
    ∃ (after : Session σ) (raw plain : Except Failure Unit × String), after.console = console ∧
      s.runQuery source colors text true = (raw.1, after.printing raw.2) ∧
      s.runQuery source false text false = (plain.1, after.printing plain.2) ∧
      Ends source s text raw plain := by
  intro s
  have hnew : s.desk.waiting.lookup s.desk.opened = none :=
    (Desk.tally_run settings validity events).lookup_opened
  obtain ⟨raw, plain, hends, hraw, hplain⟩ := exists_ends source hnew colors text
  exact ⟨(s.query source text).2, raw, plain, rfl, hraw, hplain, hends⟩

-- the plain amount of a product that is too large is an error, of any other one a line
example :
    let s : Session Prepared :=
      { desk := .fresh (.byDefault "USD") 10, state := [(⟨"usd", "eur"⟩, [⟨0, .ok (.ofInt 150)⟩])] }
    let raw (text : String) :=
      ((s.runQuery Prepared.source false text true).1.isOk,
        (s.runQuery Prepared.source false text true).2.console.out)
    (raw "1e308 usd to eur", raw "0.5 USD in Eur") = ((false, ""), (true, "75\n")) := by
  decide +kernel

end Session

end CurrencyDesk
