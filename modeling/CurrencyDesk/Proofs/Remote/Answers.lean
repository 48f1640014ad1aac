import CurrencyDesk.Proofs.Json.Documents
import CurrencyDesk.Proofs.Text.Utf8
import CurrencyDesk.Remote.Site
/-!
# What an answer tells

What comes of a request for a rate is told by how the exchange ends: by an interruption, by an
answer with a bad status, or by the body of a good one, which is a document with the rate or
is not (`Tells`). Each exchange tells one thing, and the rate of a site is what its exchange
tells (`rate_eq_iff_tells`). Of a document only the last member of the name that is asked for
matters (`LastMember`), and a number that a document gives is finite.

Key definitions: `Interrupted`, `ReadsText`, `LastMember`, `Tells`.
Key theorems: `member?_eq_some_iff`, `tells_rateInExchange`, `Tells.rateInExchange_eq`,
`rateInText_congr`, `rate_eq_iff_tells`.
-/

namespace CurrencyDesk

/-! ### The last member of a name -/

namespace Json

/-- The last member of a name in an object gives a value. -/
def LastMember (name : List Char) (value document : Json) : Prop :=
  ∃ before after, document = .object (before ++ (name, value) :: after) ∧ ∀ m ∈ after, m.1 ≠ name

variable {name : List Char} {value document : Json}

theorem member?_eq_some_iff :
    document.member? name = some value ↔ LastMember name value document := by
  cases document with
  | object members =>
    rw [member?, List.lookup_eq_some_iff]
    constructor
    · rintro ⟨after, before, heq, hafter⟩
      refine ⟨before.reverse, after.reverse, ?_, fun m hm => ?_⟩
      · rw [← List.reverse_reverse members, heq]
        simp
      · exact (bne_iff_ne.mp (hafter m (List.mem_reverse.mp hm))).symm
    · rintro ⟨before, after, heq, hafter⟩
      obtain rfl := Json.object.inj heq
      exact ⟨after.reverse, before.reverse, by simp,
        fun m hm => bne_iff_ne.mpr (hafter m (List.mem_reverse.mp hm)).symm⟩
  | _ => simp [member?, LastMember]

/-- A name has no last member when there is no object or no member of it. -/
theorem member?_eq_none_iff : document.member? name = none ↔
    ∀ members, document = .object members → ∀ m ∈ members, m.1 ≠ name := by
  cases document with
  | object members =>
    rw [member?, List.lookup_eq_none_iff]
    constructor
    · intro h _ heq m hm
      obtain rfl := Json.object.inj heq
      exact (bne_iff_ne.mp (h m (List.mem_reverse.mpr hm))).symm
    · exact fun h m hm => bne_iff_ne.mpr (h members rfl m (List.mem_reverse.mp hm)).symm
  | _ => simp [member?]

theorem LastMember.isFinite {n : Number} {text : List Char}
    (h : LastMember name (.number n) document) (hdocument : IsDocument text document) :
    n.toBinary64.isFinite = true := by
  obtain ⟨before, after, rfl, -⟩ := h
  exact hdocument.isFinite_of_mem (List.mem_append_right _ List.mem_cons_self)

end Json

/-! ### How an exchange ends -/

/-- A status is good. -/
def IsGood (status : Nat) : Prop :=
  200 ≤ status ∧ status ≤ 299

/-- An exchange ends without an answer, or the body of a good one breaks off. -/
inductive Interrupted (interruption : Interruption) : Except Interruption Response → Prop
  | unanswered : Interrupted interruption (.error interruption)
  | broken {response : Response} : IsGood response.status → response.body = .error interruption →
      Interrupted interruption (.ok response)

/-- An exchange ends with a good answer whose body is read to its end. -/
inductive ReadsText : List Char → Except Interruption Response → Prop
  | mk {response : Response} {bytes : List UInt8} : IsGood response.status →
      response.body = .ok bytes → ReadsText (bodyText bytes) (.ok response)

/-- What the end of an exchange tells about the rate that is named. -/
inductive Tells (name : List Char) (final : Except Interruption Response) :
    Except RateFault Binary64 → Prop
  /-- It took too long until the status came, or until the body of a good answer was there. -/
  | timeout : Interrupted .timeout final → Tells name final (.error .timeout)
  /-- The same, broken off for another reason. -/
  | request {interruption : Interruption} : Interrupted interruption final →
      interruption ≠ .timeout → Tells name final (.error .request)
  /-- The status is bad, whatever the body is. -/
  | status {response : Response} : final = .ok response → ¬IsGood response.status →
      Tells name final (.error (.status response.status))
  /-- The body is no document. -/
  | malformed {text : List Char} : ReadsText text final →
      (∀ document, ¬Json.IsDocument text document) → Tells name final (.error .malformed)
  /-- The document is no object, or it has no member of the name. -/
  | missing {text : List Char} {document : Json} : ReadsText text final →
      Json.IsDocument text document →
      (∀ members, document = .object members → ∀ m ∈ members, m.1 ≠ name) →
      Tells name final (.error .missing)
  /-- The last member of the name is no number. -/
  | invalid {text : List Char} {document value : Json} : ReadsText text final →
      Json.IsDocument text document → Json.LastMember name value document →
      (∀ n, value ≠ .number n) → Tells name final (.error (.invalid (String.ofList value.compact)))
  /-- The last member of the name is a number. -/
  | rate {text : List Char} {document : Json} {n : Json.Number} : ReadsText text final →
      Json.IsDocument text document → Json.LastMember name (.number n) document →
      Tells name final (.ok n.toBinary64)

/-! ### What is read from an exchange -/

section

variable {target : String} {exchange : Exchange} {text : List Char}

theorem isSuccess_iff {response : Response} :
    response.isSuccess = true ↔ IsGood response.status := by
  rw [Response.isSuccess, Bool.and_eq_true, decide_eq_true_eq, decide_eq_true_eq, IsGood]
  omega

theorem rateInExchange_of_interrupted {interruption : Interruption}
    (h : Interrupted interruption exchange.result) :
    rateInExchange target exchange = .error interruption.fault := by
  rw [rateInExchange]
  generalize exchange.result = final at h
  cases h with
  | unanswered => rfl
  | broken hgood hbody =>
    dsimp only
    rw [rateInResponse, if_pos (isSuccess_iff.mpr hgood), hbody]

theorem rateInExchange_of_status {response : Response} (h : exchange.result = .ok response)
    (hbad : ¬IsGood response.status) :
    rateInExchange target exchange = .error (.status response.status) := by
  rw [rateInExchange, h]
  exact if_neg fun hgood => hbad (isSuccess_iff.mp hgood)

theorem rateInExchange_of_readsText (h : ReadsText text exchange.result) :
    rateInExchange target exchange = rateInText target text := by
  rw [rateInExchange]
  generalize exchange.result = final at h
  cases h with
  | mk hgood hbody =>
    dsimp only
    rw [rateInResponse, if_pos (isSuccess_iff.mpr hgood), hbody]

theorem rateInText_of_isDocument {document : Json} (h : Json.IsDocument text document) :
    rateInText target text = rateInMember (document.member? target.toList) := by
  rw [rateInText, Json.parse?_eq_some_iff.mpr h]

theorem rateInMember_of_not_number {value : Json} (h : ∀ n, value ≠ .number n) :
    rateInMember (some value) = .error (.invalid (String.ofList value.compact)) := by
  cases value with
  | number n => exact absurd rfl (h n)
  | _ => rfl

theorem Tells.rateInExchange_eq {outcome : Except RateFault Binary64}
    (h : Tells target.toList exchange.result outcome) :
    rateInExchange target exchange = outcome := by
  cases h with
  | timeout h => exact rateInExchange_of_interrupted h
  | @request interruption h hne =>
    rw [rateInExchange_of_interrupted h]
    cases interruption with
    | timeout => exact absurd rfl hne
    | _ => rfl
  | status h hbad => exact rateInExchange_of_status h hbad
  | malformed h hno =>
    rw [rateInExchange_of_readsText h, rateInText,
      Option.eq_none_iff_forall_ne_some.mpr fun v hv => hno v (Json.parse?_eq_some_iff.mp hv)]
  | missing h hdocument hno =>
    rw [rateInExchange_of_readsText h, rateInText_of_isDocument hdocument,
      Json.member?_eq_none_iff.mpr hno, rateInMember]
  | invalid h hdocument hlast hno =>
    rw [rateInExchange_of_readsText h, rateInText_of_isDocument hdocument,
      Json.member?_eq_some_iff.mpr hlast, rateInMember_of_not_number hno]
  | rate h hdocument hlast =>
    rw [rateInExchange_of_readsText h, rateInText_of_isDocument hdocument,
      Json.member?_eq_some_iff.mpr hlast, rateInMember]

theorem tells_fault {interruption : Interruption} {name : List Char}
    {final : Except Interruption Response} (h : Interrupted interruption final) :
    Tells name final (.error interruption.fault) := by
  cases interruption with
  | timeout => exact .timeout h
  | unreached => exact .request h (by decide)
  | broken => exact .request h (by decide)

theorem tells_rateInText (target : String) {final : Except Interruption Response}
    (h : ReadsText text final) : Tells target.toList final (rateInText target text) := by
  rw [rateInText]
  rcases hparse : Json.parse? text with _ | document
  · refine .malformed h fun document hdocument => ?_
    rw [Json.parse?_eq_some_iff.mpr hdocument] at hparse
    cases hparse
  · have hdocument := Json.parse?_eq_some_iff.mp hparse
    dsimp only
    rcases hmember : document.member? target.toList with _ | value
    · exact .missing h hdocument (Json.member?_eq_none_iff.mp hmember)
    · have hlast := Json.member?_eq_some_iff.mp hmember
      cases value with
      | number n => exact .rate h hdocument hlast
      | _ => exact .invalid h hdocument hlast (by simp)

/-- The end of an exchange tells the rate that is read from it. -/
theorem tells_rateInExchange (target : String) (exchange : Exchange) :
    Tells target.toList exchange.result (rateInExchange target exchange) := by
  rw [rateInExchange]
  rcases exchange.result with interruption | response
  · exact tells_fault .unanswered
  · dsimp only
    rw [rateInResponse]
    split_ifs with hgood
    · rw [isSuccess_iff] at hgood
      rcases hbody : response.body with interruption | bytes
      · exact tells_fault (.broken hgood hbody)
      · exact tells_rateInText target (.mk hgood hbody)
    · exact .status rfl fun h => hgood (isSuccess_iff.mpr h)

end

theorem Tells.isFinite {name : List Char} {final : Except Interruption Response} {x : Binary64}
    (h : Tells name final (.ok x)) : x.isFinite = true := by
  cases h with
  | rate _ hdocument hlast => exact hlast.isFinite hdocument

/-- Documents with the same last member of a name, or with none, tell the same rate. -/
theorem rateInText_congr (target : String) {text text' : List Char} {document document' : Json}
    (h : Json.IsDocument text document) (h' : Json.IsDocument text' document')
    (hlast : ∀ value, Json.LastMember target.toList value document ↔
      Json.LastMember target.toList value document') :
    rateInText target text = rateInText target text' := by
  have hmember : document.member? target.toList = document'.member? target.toList :=
    Option.ext fun value => by rw [Json.member?_eq_some_iff, Json.member?_eq_some_iff, hlast]
  rw [rateInText_of_isDocument h, rateInText_of_isDocument h', hmember]

/-- **Every exchange tells one thing, and this is what a site answers.** Whatever comes back
for a pair, the rate is told by the first of these that applies: an interruption, a bad status,
a body that is no document, a document without a member that is named by the code of the
target in lower case, a last member of the name that is no number, or the number that it is,
which is finite. Of two documents with the same last member of the name, or with none, the
same is told. -/
theorem rate_eq_iff_tells (site : RateSite) (send : Transport) (source target : String) :
    let pair := CurrencyPair.ofCodes source target
    let name := (Text.lowerString target).toList
    let final := (site.exchange send pair).result
    (∀ outcome, site.rate send pair = outcome ↔ Tells name final outcome) ∧
    (∀ x, site.rate send pair = .ok x → x.isFinite = true) ∧
    ∀ (send' : Transport) (text text' : List Char) (document document' : Json),
      ReadsText text final → ReadsText text' (site.exchange send' pair).result →
      Json.IsDocument text document → Json.IsDocument text' document' →
      (∀ value, Json.LastMember name value document ↔ Json.LastMember name value document') →
      site.rate send' pair = site.rate send pair := by
  intro pair name final
  have htells : Tells name final (site.rate send pair) := tells_rateInExchange pair.target _
  refine ⟨fun outcome => ⟨fun h => h ▸ htells, Tells.rateInExchange_eq⟩,
    fun x hx => (hx ▸ htells).isFinite, ?_⟩
  intro send' text text' document document' htext htext' hdocument hdocument' hlast
  rw [RateSite.rate, RateSite.rate, rateInExchange_of_readsText htext,
    rateInExchange_of_readsText htext', rateInText_congr pair.target hdocument hdocument' hlast]

-- neither broken bytes in another member nor an earlier member of the name count
example :
    let body := Text.Utf8.encode
        "\x7b\"jpy\":null,\"JPY\":1,\"in\":\x7b\"jpy\":2\x7d,\"x\":\"".toList ++ [0xFF] ++
      Text.Utf8.encode "\",\"j\\u0070y\":155.5,\"jpy \":[]\x7d".toList
    rateInResponse "jpy" { status := 201, body := .ok body } = .ok (.nearest false 311 2) ∧
      rateInResponse "jpy" { status := 404, body := .ok body } = .error (.status 404) := by
  decide +kernel

end CurrencyDesk
