import Conch.Script.Builtin.Alias
import Conch.Script.Builtin.Condition
import Conch.Script.Builtin.Jobs
import Conch.Script.Builtin.System
import Conch.Script.Builtin.Variables
import Conch.Script.Grammar
import Conch.Tool.Format

/-!
# The builtin commands by name

Besides the commands about variables and about the system there are those that jump, that write,
and that only have a status.  Four commands run other commands and so are up to whoever runs
clauses; they have names here, but no action, nor have those that are about what names mean.
-/

namespace Conch.Script.Action

open Running

/-! ## Jumps -/

/-- The command `exit`.  Within the actions of signals the status before them counts. -/
def exit : Action := fun arguments => do
  let r ← get
  let status ← match arguments.head? with
    | some word => number word
    | none => pure (r.keptStatus.getD r.status)
  setStatus status
  throw .leave

/-- The command `return`. -/
def returnFrom : Action := fun arguments => do
  let status ← match arguments.head? with
    | some word => number word
    | none => do pure (← get).status
  setStatus status
  throw .returned

/-- A command that leaves loops; without loops it does nothing. -/
def leaveLoops (jump : Nat → Jump) : Action := fun arguments => do
  let count ← match arguments.head? with
    | some word => do
      let n ← number word
      if n = 0 then failNumber word
      pure n
    | none => pure 1
  let count := min count (← get).loops
  setStatus 0
  if count > 0 then throw (jump count)
  pure {}

/-! ## Commands that write -/

/-- The command `echo`. -/
def echo : Action := fun arguments =>
  pure { output := Format.scriptEcho arguments }

/-- The command `printf`. -/
def printf : Action := fun arguments => do
  let (_, words) ← readFlags [] arguments
  match words with
  | [] => fail "usage: printf format [arg ...]".toList
  | format :: rest =>
    let written := Format.scriptFlavor.printf format rest
    written.faults.forM fun fault => report (fault.argument ++ ": ".toList ++ fault.scriptText)
    let stopped (text : Text) : Running Reply := do
      let _ ← task (Task.ask (.write Task.output written.bytes))
      fail text
    match written.formatFault with
    | none | some .noDigits | some (.badSize ..) =>
      pure { status := if written.faults = [] then 0 else 1, output := written.bytes }
    | some (.incomplete _) => stopped "missing format character".toList
    | some (.unknown directive) => stopped (directive ++ ": invalid directive".toList)

/-- The commands `test` and `[`. -/
def test (name : Text) : Action := fun arguments => do
  match Condition.operands? name arguments with
  | none => fail "missing ]".toList
  | some words =>
    match decideWords (← look) words with
    | .ok truth => pure (.ofStatus (if truth then 0 else 1))
    | .error message => fail message

/-! ## Names -/

/-- A command that does nothing but have a status. -/
def idle (status : Nat) : Action := fun _ =>
  pure (.ofStatus status)

/-- The commands that run other commands or tell about them. -/
def higherCommands : List String :=
  [".", "command", "eval", "exec", "hash", "type"]

/-- The builtin commands. -/
def all : List (String × Action) :=
  [(":", idle 0), ("[", test ['[']), ("alias", setAliases), ("bg", controlJob),
    ("break", leaveLoops .breakLoops), ("cd", changeDirectory), ("chdir", changeDirectory),
    ("continue", leaveLoops .continueLoop), ("echo", echo), ("exit", exit),
    ("export", exportVariables), ("false", idle 1), ("fg", controlJob), ("getopts", nextOption),
    ("jobs", listGroups), ("kill", sendSignals), ("local", localVariables), ("printf", printf),
    ("pwd", workingDirectory), ("read", readVariables), ("readonly", protectVariables),
    ("return", returnFrom), ("set", setAll), ("shift", shift), ("test", test "test".toList),
    ("times", fun _ => pure (.ofText
      "0m0.000000s 0m0.000000s\n0m0.000000s 0m0.000000s\n".toList)),
    ("trap", trap), ("true", idle 0), ("ulimit", fun _ => pure (.ofText "unlimited\n".toList)),
    ("umask", changeMask), ("unalias", removeAliases), ("unset", unsetVariables),
    ("wait", waitForChildren)]

/-- The action of the builtin command with a name. -/
def ofName? (name : Text) : Option Action :=
  (all.find? fun entry => entry.1.toList == name).map Prod.snd

/-- Is it one of the builtin commands of which an error ends the script? -/
def isSpecial (name : Text) : Bool :=
  specialBuiltins.any fun word => word.toList == name

/-- Is it the name of a builtin command? -/
def isBuiltin (name : Text) : Bool :=
  (ofName? name).isSome || higherCommands.any fun word => word.toList == name

end Conch.Script.Action
