import Conch.Script.Waiting

/-!
# Builtin commands of scripts

A builtin command gets its arguments, changes the runner, and comes to a status and to what it
writes to standard output.  It fails by a report under its name.
-/

namespace Conch.Script

/-- What comes of a builtin command: its status, and what it writes. -/
structure Reply where
  status : Nat := 0
  output : List UInt8 := []
  deriving DecidableEq, Repr

/-- What a builtin command does with its arguments. -/
abbrev Action := List Text → Running Reply

namespace Reply

/-- A reply with a status. -/
def ofStatus (status : Nat) : Reply :=
  { status }

/-- A reply that is written. -/
def ofText (text : Text) : Reply :=
  { output := Utf8.encode text }

end Reply

namespace Action

open Running

/-- Read the options in the letters of one argument; one that wants an operand takes the other
letters, or the next argument.  `known` says of each option whether it wants an operand. -/
def readLetters (known : List (Char × Bool)) :
    Text → List Text → Running (List (Char × Text) × List Text)
  | [], rest => pure ([], rest)
  | c :: letters, rest => do
    match known.lookup c with
    | none => fail ("Illegal option -".toList ++ [c])
    | some false =>
      let (options, rest) ← readLetters known letters rest
      pure ((c, []) :: options, rest)
    | some true =>
      match letters, rest with
      | [], [] => fail ("No arg for -".toList ++ c :: " option".toList)
      | [], operand :: rest => pure ([(c, operand)], rest)
      | letters, rest => pure ([(c, letters)], rest)

/-- Read the options at the beginning of at most `fuel` arguments. -/
def readOptionsWithin (known : List (Char × Bool)) :
    (fuel : Nat) → List Text → Running (List (Char × Text) × List Text)
  | 0, arguments => pure ([], arguments)
  | fuel + 1, arguments => do
    match arguments with
    | ('-' :: c :: letters) :: rest =>
      if c :: letters = ['-'] then pure ([], rest)
      else
        let (options, rest) ← readLetters known (c :: letters) rest
        let (more, rest) ← readOptionsWithin known fuel rest
        pure (options ++ more, rest)
    | _ => pure ([], arguments)

/-- Read the options at the beginning of the arguments. -/
def readOptions (known : List (Char × Bool)) (arguments : List Text) :
    Running (List (Char × Text) × List Text) :=
  readOptionsWithin known (arguments.length + 1) arguments

/-- Read options that want no operands. -/
def readFlags (known : List Char) (arguments : List Text) : Running (List Char × List Text) := do
  let (options, rest) ← readOptions (known.map fun c => (c, false)) arguments
  pure (options.map Prod.fst, rest)

/-- A text that is cut at each apostrophe: the parts, each of one kind, and whether it is made of
apostrophes. -/
def apostropheParts (text : Text) : List (List Char) :=
  text.splitBy fun a b => (a = '\'') = (b = '\'')

/-- A text in quotation marks, so that it reads as itself in a script. -/
def quoted (text : Text) : Text :=
  let part (part : Text) : Text :=
    let mark := if part.head? = some '\'' then '"' else '\''
    mark :: part ++ [mark]
  let parts := (apostropheParts text).map part
  if text.head? = some '\'' then "''".toList ++ parts.flatten
  else if text = [] then "''".toList else parts.flatten

/-- A name and a value with an equals sign between them, or only a name. -/
def splitAssignment (word : Text) : Text × Option Text :=
  let name := word.takeWhile (· != '=')
  match word.dropWhile (· != '=') with
  | _ :: value => (name, some value)
  | [] => (name, none)

/-- The name of a variable; nothing else is accepted. -/
def checkName (name : Text) : Running Unit := do
  unless isName name do fail (name ++ ": bad variable name".toList)

/-- The texts in order. -/
def sorted (entries : List (Text × Variable)) : List (Text × Variable) :=
  entries.mergeSort fun a b => String.ofList a.1 ≤ String.ofList b.1

/-- Variables as commands that set them. -/
def assignments (start : Text) (entries : List (Text × Variable)) : Text :=
  (sorted entries).flatMap fun entry =>
    let value := match entry.2.value with
      | some value => '=' :: quoted value
      | none => []
    start ++ entry.1 ++ value ++ ['\n']

end Action

end Conch.Script
