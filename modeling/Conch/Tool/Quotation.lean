import Conch.Text.Decimal
import Conch.Text.Utf8

/-!
# Names in reports

A report names what it is about, and the name must not be misread: it is quoted.  A name of a
file is quoted so that a script could use it as it stands; other words are cited, with a
backslash before what could be misread.  In both ways a character that cannot be shown is written
by a letter or in octal digits after a backslash, byte by byte.
-/

namespace Conch.Tool

/-- A byte in three octal digits, after a backslash. -/
def octalEscape (b : UInt8) : Text :=
  let digit (n : Nat) : Char := Char.ofNat ('0'.toNat + n % 8)
  ['\\', digit (b.toNat / 64), digit (b.toNat / 8), digit b.toNat]

/-- The characters that cannot be shown but have a letter. -/
def letterEscapes : List (Char × Char) :=
  [('\x07', 'a'), ('\x08', 'b'), ('\x0c', 'f'), ('\n', 'n'), ('\r', 'r'), ('\t', 't'),
    ('\x0b', 'v')]

/-- A character that cannot be shown, after a backslash. -/
def escapeChar (c : Char) : Text :=
  match letterEscapes.lookup c with
  | some letter => ['\\', letter]
  | none => (String.utf8EncodeChar c).flatMap octalEscape

/-- Is the character shown as it is? -/
def isShown (c : Char) : Bool :=
  0x20 ≤ c.toNat && c.toNat < 0x7F

/-- The characters that stand for themselves between quotation marks of either kind. -/
def isHarmless (c : Char) : Bool :=
  c.isAlphanum || [' ', '%', '+', ',', '-', '.', '/', ':', '@', ']', '_', '\''].contains c

/-- The characters on which a script would not take a name as it stands. -/
def shellSpecials : List Char :=
  [' ', '!', '"', '$', '&', '(', ')', '*', ';', '<', '=', '>', '?', '[', '\\', '^', '\x60', '|',
    '\'']

/-- A name between apostrophes, from some character on.  `escaping` says whether escaped characters
come just before. -/
def quotedFrom (escaping : Bool) : Text → Text
  | [] => ['\'']
  | c :: rest =>
    if !isShown c then
      (if escaping then [] else "'$'".toList) ++ escapeChar c ++ quotedFrom true rest
    else if c = '\'' then "'\\''".toList ++ quotedFrom false rest
    else (if escaping then ['\'', '\''] else []) ++ c :: quotedFrom false rest

/-- A name in quotation marks, as a script could use it. -/
def quoted (name : Text) : Text :=
  if name.contains '\'' && name.all isHarmless then '"' :: name ++ ['"']
  else '\'' :: quotedFrom false name

/-- A name as it is shown at the beginning of a report: quoted where that is necessary. -/
def shown (name : Text) : Text :=
  let plain := name.all fun c => isShown c && !shellSpecials.contains c && c != ':'
  let opens := name.head? == some '#' || name.head? == some '~' || name = ['\x7b'] ||
    name = ['\x7d']
  if name != [] && plain && !opens then name else quoted name

/-- A word that is cited. -/
def cited (word : Text) : Text :=
  let part (c : Char) : Text :=
    if !isShown c then escapeChar c
    else if c = '\'' || c = '\\' then ['\\', c]
    else [c]
  '\'' :: word.flatMap part ++ ['\'']

end Conch.Tool
