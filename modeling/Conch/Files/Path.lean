import Conch.Text.Blank

/-!
# Paths

A path is a text that leads from one directory to a file: names with slashes between them.  A
path that begins with a slash starts at the root.
-/

namespace Conch.Path

/-- The character between two names. -/
def separator : Char := '/'

/-- Does the path start at the root? -/
def isAbsolute (path : Text) : Bool :=
  path.head? == some separator

/-- Does the path end with a separator? -/
def endsInSeparator (path : Text) : Bool :=
  path.getLast? == some separator

/-- The names of a path, in order; two separators in a row have an empty name between them. -/
def names : Text → List Text
  | [] => [[]]
  | c :: rest =>
    if c = separator then [] :: names rest
    else match names rest with
      | [] => [[c]]
      | name :: others => (c :: name) :: others

/-- The names of a path that are not empty. -/
def properNames (path : Text) : List Text :=
  (names path).filter (· != [])

/-- The path without the separators at its end. -/
def trimEnd (path : Text) : Text :=
  (path.reverse.dropWhile (· == separator)).reverse

/-- Go on from a directory by a path: an absolute path forgets the directory. -/
def join (directory path : Text) : Text :=
  if isAbsolute path then path
  else if endsInSeparator directory then directory ++ path
  else directory ++ separator :: path

/-- The absolute path made of names. -/
def ofNames : List Text → Text
  | [] => [separator]
  | names => names.flatMap (separator :: ·)

/-- The last name of a path, or a slash for the root. -/
def lastName (path : Text) : Text :=
  ((properNames path).getLast?).getD [separator]

end Conch.Path
