import Conch.Command.Expansion
import Conch.Command.Redirects

/-!
# Commands

A line is blank, a comment, or a command.  `Command.parse` reads a command off its words: the
marker `&` at the end asks for the background, `$$` is expanded, redirections are taken out,
and what is left is the program with its arguments.  The order of these steps is part of the
language: the marker goes first, so `cat > &` lacks a path, and a path may look like a marker.
-/

namespace Conch

/-- A command that is ready to be run: the program as it was written, its arguments, whether it runs
in the background, and its redirections. -/
structure Command where
  program : Word
  arguments : List Word
  background : Bool
  redirects : Redirects
  deriving DecidableEq, Repr

/-- What can be wrong with a line.  Its redirections may be at fault, nothing may be left to run
(the line is given without the blanks around it), a word may hold a NUL character, which no program
can be handed, or somebody states the fault in words of their own. -/
inductive SyntaxFault where
  | redirect (fault : Redirects.Fault)
  | missingCommand (line : Text)
  | nulInWord (word : Word)
  | stated (text : String)
  deriving DecidableEq, Repr

/-- The report of a fault. -/
def SyntaxFault.message : SyntaxFault → String
  | .redirect (.missingPath d) => s!"expected a path after '{String.ofList d.symbol}'"
  | .redirect (.repeated d) => s!"more than one '{String.ofList d.symbol}' redirection"
  | .missingCommand line => s!"missing command in '{String.ofList line}'"
  | .nulInWord word => s!"unexpected NUL byte in '{String.ofList word}'"
  | .stated text => text

namespace Command

/-- The marker that sends a command to the background. -/
def backgroundMarker : Word := ['&']

/-- The character that begins a comment. -/
def commentMarker : Char := '#'

/-- The program and its arguments. -/
def argv (c : Command) : List Word :=
  c.program :: c.arguments

/-- Are the words those of a line on which nothing is to be run? -/
def isIdle : List Word → Bool
  | [] => true
  | first :: _ => first.head? == some commentMarker

/-- Do the words end in the background marker? -/
def asksBackground (words : List Word) : Bool :=
  words.getLast? == some backgroundMarker

/-- The words without the background marker at their end. -/
def withoutMarker (words : List Word) : List Word :=
  if asksBackground words then words.dropLast else words

/-- Read one line.  `pid` is the process id of the shell, and `allowBackground` says whether the
background marker is heeded; it is taken off in either case.  A line on which nothing is to be run
has no command. -/
def parse (line : Text) (pid : UInt32) (allowBackground : Bool) :
    Except SyntaxFault (Option Command) :=
  let words := Text.words line
  if isIdle words then .ok none
  else
    match Redirects.extract (Expansion.expand pid (withoutMarker words)) with
    | .error fault => .error (.redirect fault)
    | .ok ([], _) => .error (.missingCommand (Text.trim line))
    | .ok (program :: arguments, redirects) =>
      .ok (some
        { program, arguments, redirects,
          background := asksBackground words && allowBackground })

end Command

end Conch
