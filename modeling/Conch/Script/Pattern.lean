import Conch.Text.Utf8

/-!
# Patterns

A pattern matches texts.  Some of its characters stand for others: a question mark for any
character, an asterisk for any text, and characters between brackets for one of them.  A
character of a pattern that is quoted stands for itself.

What counts as a character here is a byte: patterns and texts are spread out before they are
compared, and what is left of a text is put together again.
-/

namespace Conch

/-- A character of a pattern; one that is quoted stands for itself. -/
structure PatternChar where
  char : Char
  quoted : Bool
  deriving DecidableEq, Repr

/-- Characters from one to another. -/
abbrev CharRange := Char × Char

/-- What a part of a pattern matches: one character, any character, any text, or a character that is
in one of the ranges or in none of them. -/
inductive PatternItem where
  | char (c : Char)
  | anyChar
  | anyText
  | oneOf (negated : Bool) (ranges : List CharRange)
  deriving DecidableEq, Repr

namespace Pattern

/-- The named classes of characters. -/
def classes : List (String × List CharRange) :=
  [("alpha", [('a', 'z'), ('A', 'Z')]), ("digit", [('0', '9')]),
    ("alnum", [('a', 'z'), ('A', 'Z'), ('0', '9')]), ("upper", [('A', 'Z')]),
    ("lower", [('a', 'z')]), ("space", [(' ', ' '), ('\t', '\r')]),
    ("blank", [(' ', ' '), ('\t', '\t')]), ("xdigit", [('0', '9'), ('a', 'f'), ('A', 'F')]),
    ("punct", [('!', '/'), (':', '@'), ('[', '\x60'), ('\x7b', '~')])]

/-- Read a named class, after the opening bracket and a colon: its ranges, and the rest. -/
def readClass (pattern : List PatternChar) : Option (List CharRange × List PatternChar) :=
  let name := (pattern.takeWhile (·.char.isAlpha)).map PatternChar.char
  match pattern.drop name.length with
  | ⟨':', _⟩ :: ⟨']', _⟩ :: rest =>
    (classes.lookup (String.ofList name)).map fun ranges => (ranges, rest)
  | _ => none

/-- Read the ranges between brackets up to the closing one; the flag says that no range has been
read yet, and then the closing bracket stands for itself. -/
def readRanges : (fuel : Nat) → (isFirst : Bool) → List PatternChar →
    Option (List CharRange × List PatternChar)
  | 0, _, _ | _, _, [] => none
  | fuel + 1, isFirst, c :: rest =>
    if c = ⟨']', false⟩ && !isFirst then some ([], rest)
    else match c, rest with
      | ⟨'[', false⟩, ⟨':', _⟩ :: after =>
        match readClass after with
        | some (ranges, rest) =>
          (readRanges fuel false rest).map fun more => (ranges ++ more.1, more.2)
        | none => (readRanges fuel false rest).map fun more => (('[', '[') :: more.1, more.2)
      | c, ⟨'-', false⟩ :: last :: after =>
        if last = ⟨']', false⟩ then
          (readRanges fuel false rest).map fun more => ((c.char, c.char) :: more.1, more.2)
        else
          (readRanges fuel false after).map fun more => ((c.char, last.char) :: more.1, more.2)
      | c, _ => (readRanges fuel false rest).map fun more => ((c.char, c.char) :: more.1, more.2)

/-- Read a pattern. -/
def readItems : (fuel : Nat) → List PatternChar → List PatternItem
  | 0, _ | _, [] => []
  | fuel + 1, c :: rest =>
    if c = ⟨'?', false⟩ then .anyChar :: readItems fuel rest
    else if c = ⟨'*', false⟩ then .anyText :: readItems fuel rest
    else if c = ⟨'[', false⟩ then
      let (negated, inside) := match rest with
        | ⟨'!', false⟩ :: inside => (true, inside)
        | inside => (false, inside)
      match readRanges (inside.length + 1) true inside with
      | some (ranges, rest) => .oneOf negated ranges :: readItems fuel rest
      | none => .char '[' :: readItems fuel rest
    else .char c.char :: readItems fuel rest

/-- The items of a pattern. -/
def items (pattern : List PatternChar) : List PatternItem :=
  readItems (pattern.length + 1) pattern

/-- The ends of a text, the longest first. -/
def ends : Text → List Text
  | [] => [[]]
  | c :: rest => (c :: rest) :: ends rest

/-- Does the item match the character? -/
def matchesChar (c : Char) : PatternItem → Bool
  | .char d => c = d
  | .anyChar => true
  | .anyText => false
  | .oneOf negated ranges =>
    (ranges.any fun range => range.1.toNat ≤ c.toNat && c.toNat ≤ range.2.toNat) != negated

/-- Do the items match the text? -/
def matchesItems : List PatternItem → Text → Bool
  | [], text => text = []
  | .anyText :: rest, text => (ends text).any (matchesItems rest)
  | item :: rest, text =>
    match text with
    | [] => false
    | c :: text => matchesChar c item && matchesItems rest text

/-- A pattern in which every character stands for a byte. -/
def spread (pattern : List PatternChar) : List PatternChar :=
  pattern.flatMap fun c => (Utf8.spread [c.char]).map fun byte => ⟨byte, c.quoted⟩

/-- Does the pattern match the text? -/
def accepts (pattern : List PatternChar) (text : Text) : Bool :=
  matchesItems (items (spread pattern)) (Utf8.spread text)

/-- Can the pattern match more than one text? -/
def isGeneral (pattern : List PatternChar) : Bool :=
  (items pattern).any fun
    | .char _ => false
    | _ => true

/-- A text is compared only up to a zero character. -/
def visible (text : Text) : Text :=
  text.takeWhile (· != '\x00')

/-- The places where a text can be cut, in the order in which they are tried: from the right
everywhere, from the left up to a zero character. -/
def places (fromRight : Bool) (text : Text) : List Nat :=
  if fromRight then (List.range (text.length + 1)).reverse
  else List.range ((visible text).length + 1)

/-- Cut off what the pattern matches at the beginning of a text. -/
def cutStart (pattern : List PatternChar) (longest : Bool) (text : Text) : Text :=
  let items := items (spread pattern)
  let bytes := Utf8.spread text
  match (places longest bytes).find? fun n => matchesItems items (visible (bytes.take n)) with
  | some n => Utf8.gather (bytes.drop n)
  | none => text

/-- Cut off what the pattern matches at the end of a text. -/
def cutEnd (pattern : List PatternChar) (longest : Bool) (text : Text) : Text :=
  let items := items (spread pattern)
  let bytes := Utf8.spread text
  match (places (!longest) bytes).find? fun n => matchesItems items (visible (bytes.drop n)) with
  | some n => Utf8.gather (bytes.take n)
  | none => text

end Pattern

end Conch
