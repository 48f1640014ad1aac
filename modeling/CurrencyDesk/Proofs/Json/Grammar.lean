import CurrencyDesk.Json.Parse
import CurrencyDesk.Proofs.Binary64.Grammar
/-!
# The grammar of JSON

Which texts are documents, and of which value, said by rules. A rule leads from a text to the
rest behind what it describes, so that rules are put together by the texts between them:
blanks, then a string, a literal or a collection. A string is written with its characters as
they are, with a backslash and a letter, or with the four digits of a code unit; two units
stand for one character only side by side. A collection takes one off the number of
collections that may be around what is in it.

What a numeral stands for is `Numeral.value?`; a numeral that stands for nothing is no
literal. Of an object all members are told, in the order in which they are written.

Key definitions: `Blanks`, `Character`, `Quoted`, `Numeral.Spells`, `Literal`, `Spells`,
`IsDocument`.
-/

namespace CurrencyDesk.Json

/-- Some blanks, or none. -/
inductive Blanks : List Char → List Char → Prop
  | nil {s : List Char} : Blanks s s
  | cons {c : Char} {s rest : List Char} : c ∈ [' ', '\n', '\t', '\r'] → Blanks s rest →
      Blanks (c :: s) rest

/-- The four hexadecimal digits of a code unit. -/
inductive CodeUnit : Nat → List Char → List Char → Prop
  | mk {a b c d : Char} {i j k l : Nat} {rest : List Char} : Text.hexValue? a = some i →
      Text.hexValue? b = some j → Text.hexValue? c = some k → Text.hexValue? d = some l →
      CodeUnit (((i * 16 + j) * 16 + k) * 16 + l) (a :: b :: c :: d :: rest) rest

/-- A character of a string as it is written. -/
inductive Character : Char → List Char → List Char → Prop
  | plain {c : Char} {rest : List Char} : c ≠ '"' → c ≠ '\\' → 0x20 ≤ c.toNat →
      Character c (c :: rest) rest
  | escape {letter c : Char} {rest : List Char} : (letter, c) ∈ escapes →
      Character c ('\\' :: letter :: rest) rest
  | unit {u : Nat} {s rest : List Char} : CodeUnit u s rest → u.isValidChar →
      Character (Char.ofNat u) ('\\' :: 'u' :: s) rest
  | pair {high low : Nat} {s t rest : List Char} : CodeUnit high s ('\\' :: 'u' :: t) →
      0xD800 ≤ high → high < 0xDC00 → CodeUnit low t rest → 0xDC00 ≤ low → low < 0xE000 →
      Character (Char.ofNat (0x10000 + (high - 0xD800) * 0x400 + (low - 0xDC00)))
        ('\\' :: 'u' :: s) rest

/-- The characters of a string behind the first quote, to the last one. -/
inductive Quoted : List Char → List Char → List Char → Prop
  | close {rest : List Char} : Quoted [] ('"' :: rest) rest
  | character {c : Char} {text s t rest : List Char} : Character c s t → Quoted text t rest →
      Quoted (c :: text) s rest

/-- A text is a minus, or nothing. -/
inductive SpellsMinus : List Char → Bool → Prop
  | absent : SpellsMinus [] false
  | minus : SpellsMinus ['-'] true

/-- A text is a point with digits behind it, at least one, or nothing. -/
inductive SpellsPoint : List Char → List Char → Prop
  | absent : SpellsPoint [] []
  | point {digits : List Char} : IsDigits digits → digits ≠ [] → SpellsPoint ('.' :: digits) digits

/-- A text is a numeral of the parts that are given: there is no zero in front of other whole
digits. -/
inductive Numeral.Spells : List Char → Numeral → Prop
  | mk {sign whole point fraction power : List Char} {negative : Bool} {exponent : Int} :
      SpellsMinus sign negative → IsDigits whole → whole ≠ [] →
      (whole.head? = some '0' → whole = ['0']) → SpellsPoint point fraction →
      SpellsPower power exponent →
      Spells (sign ++ (whole ++ (point ++ power)))
        ⟨negative, whole, fraction, exponent, decide (point ++ power ≠ [])⟩

/-- A text is a literal of a value. -/
inductive Literal : List Char → Json → Prop
  | null : Literal "null".toList .null
  | falsity : Literal "false".toList (.bool false)
  | truth : Literal "true".toList (.bool true)
  | number {s : List Char} {numeral : Numeral} {n : Number} : Numeral.Spells s numeral →
      numeral.value? = some n → Literal s (.number n)

/-- What a part of a document is: a value, or what stands in an array or an object, to its
end. -/
inductive Part where
  | value (v : Json)
  | items (items : List Json)
  | members (members : List (List Char × Json))

/-- A part of a document as it is written, with at most `depth` collections in one another. -/
inductive Spells : (depth : Nat) → Part → List Char → List Char → Prop
  | string {depth : Nat} {text s t rest : List Char} : Blanks s ('"' :: t) → Quoted text t rest →
      Spells depth (.value (.string text)) s rest
  | literal {depth : Nat} {s w rest : List Char} {v : Json} : Blanks s (w ++ rest) →
      Literal w v → Spells depth (.value v) s rest
  | emptyArray {depth : Nat} {s t rest : List Char} : Blanks s ('[' :: t) → Blanks t (']' :: rest) →
      Spells (depth + 1) (.value (.array [])) s rest
  | array {depth : Nat} {s t rest : List Char} {items : List Json} : Blanks s ('[' :: t) →
      Spells depth (.items items) t rest → Spells (depth + 1) (.value (.array items)) s rest
  | emptyObject {depth : Nat} {s t rest : List Char} : Blanks s ('{' :: t) →
      Blanks t ('}' :: rest) → Spells (depth + 1) (.value (.object [])) s rest
  | object {depth : Nat} {s t rest : List Char} {members : List (List Char × Json)} :
      Blanks s ('{' :: t) → Spells depth (.members members) t rest →
      Spells (depth + 1) (.value (.object members)) s rest
  | lastItem {depth : Nat} {s t rest : List Char} {v : Json} : Spells depth (.value v) s t →
      Blanks t (']' :: rest) → Spells depth (.items [v]) s rest
  | item {depth : Nat} {s t t' rest : List Char} {v : Json} {items : List Json} :
      Spells depth (.value v) s t → Blanks t (',' :: t') → Spells depth (.items items) t' rest →
      Spells depth (.items (v :: items)) s rest
  | lastMember {depth : Nat} {name s t t₁ t₂ t₃ rest : List Char} {v : Json} :
      Blanks s ('"' :: t) → Quoted name t t₁ → Blanks t₁ (':' :: t₂) →
      Spells depth (.value v) t₂ t₃ → Blanks t₃ ('}' :: rest) →
      Spells depth (.members [(name, v)]) s rest
  | member {depth : Nat} {name s t t₁ t₂ t₃ t₄ rest : List Char} {v : Json}
      {members : List (List Char × Json)} :
      Blanks s ('"' :: t) → Quoted name t t₁ → Blanks t₁ (':' :: t₂) →
      Spells depth (.value v) t₂ t₃ → Blanks t₃ (',' :: t₄) →
      Spells depth (.members members) t₄ rest →
      Spells depth (.members ((name, v) :: members)) s rest

/-- A text is one JSON document of a value. -/
def IsDocument (text : List Char) (v : Json) : Prop :=
  ∃ rest, Spells 127 (.value v) text rest ∧ Blanks rest []

end CurrencyDesk.Json
