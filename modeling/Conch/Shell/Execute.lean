import Conch.Files.Path
import Conch.Shell.Builtin
import Conch.Shell.Launch

/-!
# Executing a line

A line is read as a command, and the command is either one that the shell runs itself or a
program.  The builtin commands give the text they print, and leave the status of the last
foreground command alone.
-/

namespace Conch.Shell

variable {σ : Type} (H : Host σ)

/-- The directory that `cd` goes to: the home directory if none is given, and a relative path goes
on from the working directory. -/
def directoryTarget (given : Option Text) (here : Text) (home : Option Text) : Option Text :=
  match given with
  | none => home
  | some path => some (Path.join here path)

/-- Change the working directory. -/
def runChangeDirectory (arguments : List Word) : Act σ Unit := do
  if arguments.length > 1 then
    fail (.builtin "cd: too many arguments" 1)
  match Builtin.directoryUsage.fit arguments with
  | .error fault => fail (.usage (Builtin.directoryUsage.report fault))
  | .ok matched =>
    let world := (← get).world
    match H.workingDirectory world with
    | .error reason => fail (.io reason)
    | .ok here =>
      match directoryTarget (matched.positional? "<dir>") here (H.home world) with
      | none => fail (.builtin "cd: HOME not set" 1)
      | some target =>
        match H.changeDirectory target world with
        | .error reason => fail (.builtin s!"cd: {String.ofList target}: {reason.message}" 1)
        | .ok world => modify fun sh => { sh with world := H.exportDirectories here target world }

/-- Run a builtin command; the result is what it prints. -/
def runBuiltin (builtin : Builtin) (arguments : List Word) : Act σ String :=
  match builtin with
  | .changeDirectory => do
    runChangeDirectory H arguments
    pure ""
  | .exit => leave H (some 0)
  | .status => do pure ((← get).interpreter.status.text ++ "\n")

/-- Run a command. -/
def run (command : Command) : Act σ Unit :=
  match Builtin.ofName? command.program with
  | some builtin => do print H (← runBuiltin H builtin command.arguments)
  | none => launch H command

/-- Read a line as a command and run it. -/
def execute (line : Text) : Act σ Unit := do
  let sh ← get
  match Command.parse line sh.pid (!sh.interpreter.foregroundOnly) with
  | .error fault => fail (.malformed fault)
  | .ok none => pure ()
  | .ok (some command) => run H command

end Conch.Shell
