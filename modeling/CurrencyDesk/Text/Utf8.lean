/-!
# Reading UTF-8

Bytes are read one at a time. In the middle of a character the decoder knows how many
continuation bytes are to come, the bits so far, and the range that the next one has
to be in: the first continuation byte of some leads has a narrower range than the
others, which keeps out overlong forms, surrogates and what lies beyond Unicode. A
byte out of range ends the malformed sequence in front of it and is read again by
itself. So each malformed sequence is as long as it can be, and `symbols` has one
entry per character and one per malformed sequence.

Key definitions: `symbols`, `decode?` (no malformed sequence), `decodeLossy` (each
replaced by U+FFFD).
-/

namespace CurrencyDesk.Text.Utf8

/-- Where the decoder stands between two bytes. -/
inductive Place where
  | between
  | inside (missing bits low high : Nat)

/-- Reads a byte that has to begin a character. -/
def lead (b : Nat) : List (Option Char) × Place :=
  if b < 0x80 then ([some (Char.ofNat b)], .between)
  else if b < 0xC2 then ([none], .between)
  else if b < 0xE0 then ([], .inside 1 (b - 0xC0) 0x80 0xBF)
  else if b < 0xF0 then
    ([], .inside 2 (b - 0xE0) (if b = 0xE0 then 0xA0 else 0x80) (if b = 0xED then 0x9F else 0xBF))
  else if b < 0xF5 then
    ([], .inside 3 (b - 0xF0) (if b = 0xF0 then 0x90 else 0x80) (if b = 0xF4 then 0x8F else 0xBF))
  else ([none], .between)

/-- Reads a byte: what it completes, and where the decoder stands after it. -/
def step : Place → Nat → List (Option Char) × Place
  | .between, b => lead b
  | .inside missing bits low high, b =>
    if low ≤ b ∧ b ≤ high then
      let bits := bits * 64 + (b - 0x80)
      if missing ≤ 1 then ([some (Char.ofNat bits)], .between)
      else ([], .inside (missing - 1) bits 0x80 0xBF)
    else
      let (symbols, place) := lead b
      (none :: symbols, place)

/-- The characters of a byte sequence from a place on, `none` for each malformed
sequence. -/
def symbolsFrom : Place → List UInt8 → List (Option Char)
  | .between, [] => []
  | .inside .., [] => [none]
  | place, b :: bytes =>
    let (symbols, next) := step place b.toNat
    symbols ++ symbolsFrom next bytes

/-- The characters of a byte sequence, `none` for each malformed sequence. -/
def symbols (bytes : List UInt8) : List (Option Char) :=
  symbolsFrom .between bytes

/-- All values of a list of options, if there is no `none` among them. -/
def allSome : List (Option Char) → Option (List Char)
  | [] => some []
  | none :: _ => none
  | some c :: rest => (allSome rest).map (c :: ·)

/-- The text that bytes encode, if they are well formed. -/
def decode? (bytes : List UInt8) : Option (List Char) :=
  allSome (symbols bytes)

/-- The text that bytes encode, with U+FFFD for each malformed sequence. -/
def decodeLossy (bytes : List UInt8) : List Char :=
  (symbols bytes).map (·.getD '\uFFFD')

/-- The bytes of a text. -/
def encode (s : List Char) : List UInt8 :=
  s.flatMap String.utf8EncodeChar

end CurrencyDesk.Text.Utf8
