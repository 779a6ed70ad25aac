import Conch.Text.Blank

/-!
# UTF-8

`encode` writes text as bytes.  `decodeLossy` reads any bytes as text: every maximal part of
the input that begins a character but cannot be completed to one, and every byte that cannot
begin one, becomes a single replacement character.  The decoder goes byte by byte; between
two bytes it is either between characters or inside one, in which case it knows how many
bytes are owed and in what range the next one has to lie.
-/

namespace Conch.Utf8

/-- The character that stands for what could not be decoded. -/
def replacement : Char := '\uFFFD'

/-- Where the decoder stands between two bytes: between two characters, or inside of one.  There
`owed + 1` more bytes are needed, the next one from `low` to `high`, and `value` holds the bits read
so far. -/
inductive State where
  | start
  | inside (owed : Nat) (low high : UInt8) (value : Nat)
  deriving DecidableEq, Repr

/-- What the first byte of a character of more than one byte asks for. -/
def lead (b : UInt8) : Option State :=
  if 0xC2 ≤ b && b ≤ 0xDF then some (.inside 0 0x80 0xBF (b.toNat - 0xC0))
  else if b = 0xE0 then some (.inside 1 0xA0 0xBF 0)
  else if b = 0xED then some (.inside 1 0x80 0x9F 0xD)
  else if 0xE1 ≤ b && b ≤ 0xEF then some (.inside 1 0x80 0xBF (b.toNat - 0xE0))
  else if b = 0xF0 then some (.inside 2 0x90 0xBF 0)
  else if 0xF1 ≤ b && b ≤ 0xF3 then some (.inside 2 0x80 0xBF (b.toNat - 0xF0))
  else if b = 0xF4 then some (.inside 2 0x80 0x8F 4)
  else none

/-- Read a byte between two characters: the characters it settles, and the state after. -/
def feedStart (b : UInt8) : Text × State :=
  if b < 0x80 then ([Char.ofNat b.toNat], .start)
  else match lead b with
    | some state => ([], state)
    | none => ([replacement], .start)

/-- Read a byte.  A byte that cannot go on with the character that was begun leaves a replacement
character for it and is read again between characters. -/
def feed : State → UInt8 → Text × State
  | .start, b => feedStart b
  | .inside owed low high value, b =>
    if low ≤ b && b ≤ high then
      let value := value * 64 + (b.toNat - 0x80)
      match owed with
      | 0 => ([Char.ofNat value], .start)
      | owed + 1 => ([], .inside owed 0x80 0xBF value)
    else
      let (settled, state) := feedStart b
      (replacement :: settled, state)

/-- What the end of the input settles. -/
def finish : State → Text
  | .start => []
  | .inside .. => [replacement]

/-- Decode from a given state. -/
def decodeFrom (state : State) : List UInt8 → Text
  | [] => finish state
  | b :: rest =>
    let (settled, state) := feed state b
    settled ++ decodeFrom state rest

/-- Read bytes: the characters they settle, and the state after. -/
def feedAll (state : State) : List UInt8 → Text × State
  | [] => ([], state)
  | b :: rest =>
    let (settled, state) := feed state b
    let (more, state) := feedAll state rest
    (settled ++ more, state)

/-- The text of any bytes. -/
def decodeLossy (bytes : List UInt8) : Text :=
  decodeFrom .start bytes

/-- The bytes of a text. -/
def encode (t : Text) : List UInt8 :=
  t.flatMap String.utf8EncodeChar

/-- A text in which every character stands for one byte of another text. -/
def spread (t : Text) : Text :=
  (encode t).map fun b => Char.ofNat b.toNat

/-- The text for whose bytes the characters of another text stand. -/
def gather (t : Text) : Text :=
  decodeLossy (t.map fun c => UInt8.ofNat c.toNat)

/-- The number of bytes a text takes. -/
def size (t : Text) : Nat :=
  (t.map Char.utf8Size).foldr (· + ·) 0

end Conch.Utf8
