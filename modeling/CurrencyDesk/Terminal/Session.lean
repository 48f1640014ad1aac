import CurrencyDesk.Desk.Serve
import CurrencyDesk.Terminal.Failure
import CurrencyDesk.Terminal.Style
import CurrencyDesk.Text.Utf8
/-!
# Queries from a terminal

A session is a desk with its source and what has come of it so far: the pairs that the
source was asked for, and what was printed. A single query prints its items, or, when
the plain amount is wanted, the text that its first item copies; a text that is no
conversion fails. Interactive use is one query per line of the input, where lines that
are no conversion print nothing, up to the end or to the first line that is no text.

Key definitions: `Session`, `Session.query`, `Session.runQuery`, `inputLines`,
`Session.runLines`, `Session.runInteractive`.
-/

namespace CurrencyDesk

/-- What a run prints. -/
structure Console where
  out : String := ""
  err : String := ""
deriving DecidableEq

/-- A desk at a terminal: with the state of its source, the pairs that were asked for,
and what was printed. -/
structure Session (σ : Type) where
  desk : Desk
  state : σ
  asked : List CurrencyPair := []
  console : Console := {}

namespace Session

variable {σ : Type}

/-- Prints a line. -/
def print (s : Session σ) (line : String) : Session σ :=
  { s with console := { s.console with out := s.console.out ++ line ++ "\n" } }

/-- Prints a line that is not part of the result. -/
def note (s : Session σ) (line : String) : Session σ :=
  { s with console := { s.console with err := s.console.err ++ line ++ "\n" } }

/-- The items among replies. -/
def itemsOf (replies : List Reply) : List Item :=
  replies.flatMap fun
    | .items items => items
    | _ => []

/-- The items of a query. -/
def query (source : RateSource σ) (s : Session σ) (text : String) : List Item × Session σ :=
  let served := s.desk.serve source s.state [.query text]
  (itemsOf served.replies,
    { s with desk := served.desk, state := served.state, asked := s.asked ++ served.asked })

/-- Runs a single query, with the items or the plain amount as its output. -/
def runQuery (source : RateSource σ) (colors : Bool) (s : Session σ) (text : String) (raw : Bool) :
    Except Failure Unit × Session σ :=
  let (items, s) := s.query source text
  match items with
  | [] => (.error (.notAConversion text), s)
  | first :: _ =>
    if raw then
      match first.copies with
      | some amount => (.ok (), s.print amount)
      | none => (.error (.conversionFailed text), s)
    else (.ok (), s.print (renderItems colors items))

/-- What interactive use begins with. -/
def greeting : String :=
  "Enter '<amount>' or '<amount> <from> to <to>', Ctrl-D to quit."

/-- Drops a carriage return at the end of a line. -/
def dropReturn (line : List UInt8) : List UInt8 :=
  if line.getLast? = some 13 then line.dropLast else line

/-- The lines of an input: the parts in front of line feeds, without a carriage return
there, and what stands behind the last one, if anything does. -/
def inputLines (input : List UInt8) : List (List UInt8) :=
  let parts := Text.splitWhen (· == 10) input
  let rest := parts.getLastD []
  parts.dropLast.map dropReturn ++ (if rest.isEmpty then [] else [rest])

/-- Runs one query per line, up to a line that is no text. -/
def runLines (source : RateSource σ) (colors : Bool) (s : Session σ) :
    List (List UInt8) → Except Failure Unit × Session σ
  | [] => (.ok (), s)
  | line :: lines =>
    match Text.Utf8.decode? line with
    | none => (.error .unreadableInput, s)
    | some text =>
      let (items, s) := s.query source (String.ofList text)
      let s := if items.isEmpty then s else s.print (renderItems colors items)
      s.runLines source colors lines

/-- Runs one query per line of an input. -/
def runInteractive (source : RateSource σ) (colors : Bool) (s : Session σ) (input : List UInt8) :
    Except Failure Unit × Session σ :=
  (s.note (Style.subtle.paint colors greeting)).runLines source colors (inputLines input)

end Session

end CurrencyDesk
