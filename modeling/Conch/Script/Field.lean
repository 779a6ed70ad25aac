import Conch.Process.Routine
import Conch.Script.Pattern

/-!
# From what a word stands for to fields

When everything in a word has been replaced it is a series of glyphs.  The value of a parameter
that is not quoted is cut into fields at the characters of a separator list: blanks among them
separate fields in any number, and each other one ends a field.  A field in which a pattern can
match more than one text is replaced by the paths it matches, if there are any.
-/

namespace Conch.Script

/-- A part of what a word stands for: a character, where one that `splits` counts as a separator if
it is one, the border between two parameters, or the place where something quoted begins, which may
be empty. -/
inductive Glyph where
  | char (c : Char) (quoted splits : Bool)
  | border
  | mark
  deriving DecidableEq, Repr

/-- Text as glyphs. -/
def Glyph.ofText (quoted splits : Bool) (text : Text) : List Glyph :=
  text.map fun c => .char c quoted splits

/-- The glyphs as one text. -/
def Glyph.text (glyphs : List Glyph) : Text :=
  glyphs.flatMap fun
    | .char c _ _ => [c]
    | .border => [' ']
    | .mark => []

/-- The glyphs as a pattern. -/
def Glyph.pattern (glyphs : List Glyph) : List PatternChar :=
  glyphs.flatMap fun
    | .char c quoted _ => [⟨c, quoted⟩]
    | .border => [⟨' ', true⟩]
    | .mark => []

/-! ## Fields -/

/-- A field, whose quoted characters stand for themselves. -/
abbrev Field := List PatternChar

/-- The state in which fields are put together: the fields that are complete, the last one first,
the field that is being put together, the last character first, whether it has been begun, and
whether a blank has just ended a field. -/
structure Splitter where
  fields : List Field := []
  current : Field := []
  begun : Bool := false
  gap : Bool := false

namespace Splitter

/-- Is the character a blank? -/
def isGap (c : Char) : Bool :=
  c = ' ' || c = '\t' || c = '\n'

/-- End the field. -/
def emit (s : Splitter) : Splitter :=
  if s.begun then { fields := s.current.reverse :: s.fields }
  else { fields := s.fields }

/-- Take in a glyph. -/
def step (separators : Text) (s : Splitter) : Glyph → Splitter
  | .mark => { s with begun := true, gap := false }
  | .border => s.emit
  | .char c quoted splits =>
    if !splits || !separators.contains c then
      { s with current := ⟨c, quoted⟩ :: s.current, begun := true, gap := false }
    else if isGap c then { s.emit with gap := s.begun || s.gap }
    else if s.gap then { s with gap := false }
    else { s with begun := true }.emit

end Splitter

/-- The fields that glyphs make up. -/
def Glyph.fields (separators : Text) (glyphs : List Glyph) : List Field :=
  (glyphs.foldl (Splitter.step separators) {}).emit.fields.reverse

/-- The characters that separate fields if nothing is said about it. -/
def usualSeparators : Text := [' ', '\t', '\n']

/-! ## Lines -/

/-- The state in which a line is cut into fields: the fields that are complete, the last one first,
how many may still be made of the rest, where the field begins that is being read, where the rest of
the line ends if nothing comes but separators, and whether a blank has just been read. -/
structure LineCutter where
  fields : List Text := []
  missing : Nat
  start : Nat := 0
  stop : Option Nat := none
  gap : Bool := false

namespace LineCutter

/-- End the field before a separator. -/
def endField (line : Text) (s : LineCutter) (position : Nat) (blank : Bool) : LineCutter :=
  if position = s.start && blank then { s with start := position + 1, gap := false }
  else if s.missing ≤ 1 then { s with missing := 0, stop := some position, gap := blank }
  else
    { s with
      fields := (line.take position).drop s.start :: s.fields
      missing := s.missing - 1
      start := position + 1
      gap := blank }

/-- Read a character of the line.  The last field is the rest of the line without the blanks at its
end, and without a single separator that has nothing but blanks around it.  A quoted character
belongs to whatever comes before it. -/
def step (separators line : Text) (s : LineCutter) (entry : PatternChar × Nat) : LineCutter :=
  let (c, position) := entry
  let separates := separators.contains c.char
  let blank := separates && Splitter.isGap c.char
  if c.quoted then { s with gap := false }
  else if s.missing = 0 then
    if blank then { s with stop := s.stop.or (some position) }
    else { s with stop := if separates && s.gap then s.stop else none, gap := false }
  else if s.gap then
    let s := { s with start := if separates then position + 1 else position }
    if blank then s else { s with gap := false }
  else if separates then s.endField line position blank
  else s

end LineCutter

/-- Cut a line into at most so many fields; the last one is the rest of the line. -/
def cutLine (separators : Text) (count : Nat) (line : List PatternChar) : List Text :=
  let text := line.map PatternChar.char
  let s := line.zipIdx.foldl (LineCutter.step separators text) { missing := count }
  let last := (text.take (s.stop.getD text.length)).drop s.start
  s.fields.reverse ++ (if last = [] then [] else [last])

/-! ## Paths -/

/-- The parts of a field between slashes. -/
def Field.parts : Field → List Field
  | [] => [[]]
  | c :: rest =>
    if c.char = Path.separator then [] :: Field.parts rest
    else match Field.parts rest with
      | [] => [[c]]
      | part :: others => (c :: part) :: others

/-- The text of a field. -/
def Field.text (field : Field) : Text :=
  field.map PatternChar.char

/-- The names in a directory that a part of a field matches, in order. -/
def matchingNames (view : View) (directory : Text) (part : Field) : List Text :=
  match view.files.findDirectory view.directory (if directory = [] then ['.'] else directory) with
  | .error _ => []
  | .ok file =>
    let showsHidden := part.head?.any fun c => c.char = '.'
    let names := (view.files.entries file).map Prod.fst
    let names := if showsHidden then ['.'] :: ['.', '.'] :: names else names
    (names.filter fun name =>
      (showsHidden || name.head? != some '.') && Pattern.accepts part name).mergeSort
        fun a b => String.ofList a ≤ String.ofList b

/-- The paths that parts of a field match, behind what was matched before. -/
def matchingPaths (view : View) (before : Text) : List Field → List Text
  | [] => [before]
  | [part] =>
    if Pattern.isGeneral part then (matchingNames view before part).map (before ++ ·)
    else
      let path := before ++ Field.text part
      if (view.files.findFor .entry view.directory path).isOk then [path] else []
  | part :: rest =>
    let names := if Pattern.isGeneral part then matchingNames view before part
      else [Field.text part]
    names.flatMap fun name => matchingPaths view (before ++ name ++ [Path.separator]) rest

/-- The words that a field stands for. -/
def Field.words (view : View) (field : Field) : List Text :=
  if !Pattern.isGeneral field then [field.text]
  else match matchingPaths view [] field.parts with
    | [] => [field.text]
    | paths => paths

end Conch.Script
