/-!
# Text, blanks and words

Text is a list of characters.  A character is *blank* when it has the Unicode property
`White_Space`; the words of a text are its maximal runs of characters that are not blank, so
a word is never empty and never holds a blank.
-/

namespace Conch

/-- A piece of text, as the characters it is made of. -/
abbrev Text := List Char

/-- A word of a command line. -/
abbrev Word := Text

namespace Text

/-- The ranges of code points with the Unicode property `White_Space`, ends included. -/
def blankRanges : List (Nat × Nat) :=
  [(0x09, 0x0D), (0x20, 0x20), (0x85, 0x85), (0xA0, 0xA0), (0x1680, 0x1680),
    (0x2000, 0x200A), (0x2028, 0x2029), (0x202F, 0x202F), (0x205F, 0x205F),
    (0x3000, 0x3000)]

/-- Does the character separate words? -/
def isBlank (c : Char) : Bool :=
  blankRanges.any fun range => range.1 ≤ c.toNat && c.toNat ≤ range.2

/-- Is the character one of the blanks that come before a number? -/
def isPlainBlank (c : Char) : Bool :=
  c = ' ' || ('\t' ≤ c && c ≤ '\r')

/-- Does the text begin in the middle of a word, that is with a character that is not blank? -/
def continuesWord : Text → Bool
  | [] => false
  | c :: _ => !isBlank c

/-- Put one more character in front of the first word. -/
def consToFirst (c : Char) : List Word → List Word
  | [] => [[c]]
  | w :: ws => (c :: w) :: ws

/-- The words of a text, in order. -/
def words : Text → List Word
  | [] => []
  | c :: rest =>
    if isBlank c then words rest
    else if continuesWord rest then consToFirst c (words rest)
    else [c] :: words rest

/-- The text without the blanks at its two ends. -/
def trim (t : Text) : Text :=
  ((t.dropWhile isBlank).reverse.dropWhile isBlank).reverse

end Text

end Conch
