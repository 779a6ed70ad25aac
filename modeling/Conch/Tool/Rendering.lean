import Conch.Text.Decimal
import Conch.Text.Utf8

/-!
# How text can be shown

Text that is copied can be changed so that more of it is seen: lines get numbers, their ends and
tabs get marks, other characters are written with a caret or with `M-` before them, and of
several empty lines all but one can be left out.

The bytes are taken one at a time, and `Progress` is what has to be known of those before, so that
it does not matter how the text is cut into pieces.
-/

namespace Conch.Tool

/-- How text is to be shown: lines get numbers, though perhaps not empty ones, of several empty
lines only the first is shown, and the ends of lines, tabs and what cannot be seen are marked. -/
structure Rendering where
  numbers : Bool := false
  skipsEmpty : Bool := false
  squeezes : Bool := false
  marksEnds : Bool := false
  marksTabs : Bool := false
  marksOthers : Bool := false
  deriving DecidableEq, Repr

/-- What is known of the bytes so far: how many lines have got a number, between lines whether the
last one was empty, and whether a carriage return has not been shown yet. -/
structure Progress where
  line : Nat := 0
  between : Option Bool := some false
  held : Bool := false
  deriving DecidableEq, Repr

namespace Rendering

/-- The end of a line. -/
def lineEnd : UInt8 := 10

/-- A carriage return. -/
def carriageReturn : UInt8 := 13

/-- A tab. -/
def tab : UInt8 := 9

/-- The number before a line. -/
def numberField (n : Nat) : Text :=
  let digits := Text.decimal n
  List.replicate (6 - digits.length) ' ' ++ digits ++ ['\t']

/-- A byte below 128 with a mark if it cannot be seen. -/
def caretForm (b : UInt8) : List UInt8 :=
  if b < 32 then [94, b + 64] else if b = 127 then [94, 63] else [b]

/-- A byte with a mark if it cannot be seen. -/
def markedForm (b : UInt8) : List UInt8 :=
  if b < 128 then caretForm b else Utf8.encode "M-".toList ++ caretForm (b - 128)

/-- A byte that does not end a line, as it is shown. -/
def byteForm (r : Rendering) (b : UInt8) : List UInt8 :=
  if b = tab then if r.marksTabs then caretForm b else [b]
  else if r.marksOthers then markedForm b
  else [b]

/-- The number of the next line, if it gets one. -/
def startLine (r : Rendering) (p : Progress) (isEmpty : Bool) : List UInt8 × Progress :=
  if r.numbers && !(isEmpty && r.skipsEmpty) then
    (Utf8.encode (numberField (p.line + 1)), { p with line := p.line + 1 })
  else ([], p)

/-- The end of a line, as it is shown. -/
def endForm (r : Rendering) : List UInt8 :=
  if r.marksEnds then [36, lineEnd] else [lineEnd]

/-- Take one byte: what is shown, and what is known then. -/
def step (r : Rendering) (p : Progress) (b : UInt8) : List UInt8 × Progress :=
  if b = lineEnd then
    match p.between with
    | none =>
      let mark := if p.held then caretForm carriageReturn else []
      (mark ++ r.endForm, { p with between := some false, held := false })
    | some wasEmpty =>
      if wasEmpty && r.squeezes then ([], p)
      else
        let (number, p) := r.startLine p true
        (number ++ r.endForm, { p with between := some true })
  else
    let before := if p.held then [carriageReturn] else []
    let (number, p) := if p.between.isSome then r.startLine p false else ([], p)
    let holds := b = carriageReturn && r.marksEnds && !r.marksOthers
    (before ++ number ++ (if holds then [] else r.byteForm b),
      { p with between := none, held := holds })

/-- Take some bytes. -/
def feed (r : Rendering) : Progress → List UInt8 → List UInt8 × Progress
  | p, [] => ([], p)
  | p, b :: rest =>
    let (shown, p) := r.step p b
    let (more, p) := r.feed p rest
    (shown ++ more, p)

/-- What is left to show at the end. -/
def finish (p : Progress) : List UInt8 :=
  if p.held then [carriageReturn] else []

end Rendering

end Conch.Tool
