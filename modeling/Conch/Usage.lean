import Conch.Text.Blank
import Conch.Text.EditDistance

/-!
# Usage patterns

The arguments of a program are flags and positionals.  A usage describes the flags the
program knows and the patterns into which its arguments may fit.  Reading goes in two steps:
`readArguments` tells flags from positionals, and the first pattern that takes up everything
that was read gives each positional its name.  A flag may be given once.

A long flag is spelled out (`--name`) and gets its value after an equals sign or as the next
argument; short flags are one letter each and may be stacked (`-ab`).  After the first `--`
every argument is positional, and so is a single hyphen anywhere.
-/

namespace Conch

/-- How a flag is written: one hyphen and a character, or two hyphens and a name. -/
inductive FlagName where
  | short (letter : Char)
  | long (name : Text)
  deriving DecidableEq, Repr

/-- The flag as it is written. -/
def FlagName.text : FlagName → Text
  | short letter => ['-', letter]
  | long name => '-' :: '-' :: name

/-- A flag that a program knows, with the ways to write it, the last of which is how reports call
it, and whether it comes with a value. -/
structure Flag where
  names : List FlagName
  takesValue : Bool := false
  deriving DecidableEq, Repr

/-- What reports call the flag. -/
def Flag.text (f : Flag) : Text :=
  (f.names.getLast?.map FlagName.text).getD []

/-- A positional argument of a pattern, which may be optional. -/
structure Positional where
  name : String
  optional : Bool := false
  deriving DecidableEq, Repr

/-- A pattern of arguments: the flags that must be there, whether any other flag of the program may
be there, and the positionals in their order. -/
structure Pattern where
  required : List Flag := []
  anyFlags : Bool := false
  positionals : List Positional := []
  deriving DecidableEq, Repr

/-- What a program has to say about its arguments: the patterns as they are shown to the user, its
flags, and the patterns in the order in which they are tried. -/
structure Usage where
  summary : String
  flags : List Flag := []
  patterns : List Pattern
  deriving Repr

/-- What can be wrong with arguments: there is no such flag, though another one may have been meant,
a flag was given a value that it does not take or lacks the one it takes, or no pattern fits. -/
inductive UsageFault where
  | unknownFlag (flag : Text) (meant : Option Text)
  | unexpectedValue (flag : Text) (value : Text)
  | missingValue (flag : Text)
  | noPattern
  deriving DecidableEq, Repr

/-- What an argument turned out to be: a flag, with the value that came with it, or a positional. -/
inductive Argument where
  | flag (flag : Flag) (value : Option Text)
  | positional (text : Text)
  deriving DecidableEq, Repr

/-- Arguments that fit a pattern: the flags with their values, and the positionals by name. -/
structure Matched where
  flags : List (Flag × Option Text)
  positionals : List (String × Text)
  deriving DecidableEq, Repr

namespace Usage

/-- Is the argument written like a long flag?  Blanks may only stand in its value. -/
def looksLong : Text → Bool
  | '-' :: '-' :: c :: rest =>
    let name := rest.takeWhile fun c => !Text.isBlank c
    !Text.isBlank c && (name.length == rest.length ||
      (name.contains '=' && !((rest.dropWhile (· != '=')).contains '\n')))
  | _ => false

/-- Is the argument written like short flags? -/
def looksShort : Text → Bool
  | '-' :: c :: rest => c != '-' && rest.all fun c => !Text.isBlank c
  | _ => false

/-- The flag that is written in a given way. -/
def flag? (u : Usage) (name : FlagName) : Option Flag :=
  u.flags.find? fun flag => flag.names.contains name

/-- The long flags of the program, as they are written. -/
def longFlags (u : Usage) : List Text :=
  u.flags.flatMap fun flag => flag.names.filterMap fun
    | .long name => some (FlagName.long name).text
    | .short _ => none

/-- How far apart a flag and the one that was meant may be. -/
def maxSlip : Nat := 2

/-- The known long flag nearest to the one that was written, if it is near enough. -/
def meant? (u : Usage) (written : Text) : Option Text :=
  (u.longFlags.foldl (fun (best : Option (Nat × Text)) known =>
    let distance := EditDistance.distance written known
    if distance ≤ maxSlip && (best.all fun b => distance < b.1) then some (distance, known)
    else best) none).map Prod.snd

/-- Read stacked short flags.  A flag that takes a value takes the rest of the stack, or the next
argument; the result has the flags and the arguments that follow. -/
def readShort (u : Usage) :
    Text → List Text → Except UsageFault (List Argument × List Text)
  | [], following => .ok ([], following)
  | c :: stack, following =>
    match u.flag? (.short c) with
    | none => .error (.unknownFlag (FlagName.short c).text none)
    | some flag =>
      if flag.takesValue then
        match stack, following with
        | [], [] => .error (.missingValue flag.text)
        | [], value :: following => .ok ([.flag flag (some value)], following)
        | value, following => .ok ([.flag flag (some value)], following)
      else
        (readShort u stack following).map fun r => (.flag flag none :: r.1, r.2)

/-- Read a long flag, written without its two hyphens. -/
def readLong (u : Usage) (written : Text) (following : List Text) :
    Except UsageFault (Argument × List Text) :=
  let name := FlagName.long (written.takeWhile (· != '='))
  let value? := match written.dropWhile (· != '=') with
    | [] => none
    | _ :: value => some value
  match u.flag? name with
  | none => .error (.unknownFlag name.text (u.meant? name.text))
  | some flag =>
    match flag.takesValue, value?, following with
    | false, some value, _ => .error (.unexpectedValue flag.text value)
    | false, none, following => .ok (.flag flag none, following)
    | true, some value, following => .ok (.flag flag (some value), following)
    | true, none, value :: following => .ok (.flag flag (some value), following)
    | true, none, [] => .error (.missingValue flag.text)

/-- Tell flags from positionals.  Each step takes at least one argument, so `fuel` need not exceed
their number. -/
def readArgumentsAux (u : Usage) :
    (fuel : Nat) → List Text → Except UsageFault (List Argument)
  | 0, _ => .ok []
  | _, [] => .ok []
  | fuel + 1, argument :: following =>
    if argument = ['-', '-'] then .ok (following.map .positional)
    else if looksLong argument then
      match readLong u (argument.drop 2) following with
      | .error fault => .error fault
      | .ok (flag, following) => (readArgumentsAux u fuel following).map (flag :: ·)
    else if looksShort argument then
      match readShort u (argument.drop 1) following with
      | .error fault => .error fault
      | .ok (flags, following) => (readArgumentsAux u fuel following).map (flags ++ ·)
    else (readArgumentsAux u fuel following).map (.positional argument :: ·)

/-- Tell flags from positionals. -/
def readArguments (u : Usage) (arguments : List Text) : Except UsageFault (List Argument) :=
  readArgumentsAux u arguments.length arguments

/-- Give the positionals their names; all must be used up. -/
def namePositionals : List Positional → List Text → Option (List (String × Text))
  | [], [] => some []
  | [], _ :: _ => none
  | p :: ps, [] => if p.optional then namePositionals ps [] else none
  | p :: ps, value :: values => (namePositionals ps values).map ((p.name, value) :: ·)

/-- The flags among the arguments, with their values. -/
def flagsOf (arguments : List Argument) : List (Flag × Option Text) :=
  arguments.filterMap fun
    | .flag flag value => some (flag, value)
    | .positional _ => none

/-- The positionals among the arguments. -/
def positionalsOf (arguments : List Argument) : List Text :=
  arguments.filterMap fun
    | .flag .. => none
    | .positional text => some text

/-- Fit arguments into one pattern. -/
def matchPattern (pattern : Pattern) (arguments : List Argument) : Option Matched :=
  let flags := flagsOf arguments
  let given := flags.map Prod.fst
  if given.Nodup && (pattern.required.all given.contains) &&
      (pattern.anyFlags || given.all pattern.required.contains) then
    (namePositionals pattern.positionals (positionalsOf arguments)).map fun positionals =>
      { flags, positionals }
  else none

/-- Read the arguments of a program and fit them into the first pattern that takes them. -/
def fit (u : Usage) (arguments : List Text) : Except UsageFault Matched :=
  match u.readArguments arguments with
  | .error fault => .error fault
  | .ok arguments =>
    match u.patterns.findSome? fun pattern => matchPattern pattern arguments with
    | some matched => .ok matched
    | none => .error .noPattern

end Usage

/-- What is wrong with the arguments, in words. -/
def UsageFault.message : UsageFault → String
  | unknownFlag flag none => s!"Unknown flag: '{String.ofList flag}'"
  | unknownFlag flag (some meant) =>
    s!"Unknown flag: '{String.ofList flag}'. Did you mean '{String.ofList meant}'?"
  | unexpectedValue flag value =>
    s!"Flag '{String.ofList flag}' cannot have an argument, " ++
      s!"but found '{String.ofList value}'."
  | missingValue flag =>
    s!"Expected argument for flag '{String.ofList flag}' but reached end of arguments."
  | noPattern => "Invalid arguments."

/-- The report of a fault, with the patterns of the usage after it. -/
def Usage.report (u : Usage) (fault : UsageFault) : String :=
  s!"{fault.message}\n\n{u.summary}"

namespace Matched

/-- Was the flag given? -/
def has (m : Matched) (flag : Flag) : Bool :=
  m.flags.any fun given => given.1 == flag

/-- The value of a flag. -/
def value? (m : Matched) (flag : Flag) : Option Text :=
  (m.flags.lookup flag).join

/-- The positional with a given name. -/
def positional? (m : Matched) (name : String) : Option Text :=
  m.positionals.lookup name

end Matched

end Conch
