import Conch.Process.Execution
import Conch.Process.Children
import Conch.Script.Clause
import Conch.Text.Decimal

/-!
# Running a script

A script is run by a `Runner`, which remembers its variables, functions, options and children.
What the runner does is a task of a process with two things more: it changes the runner, and it
can jump, which ends whatever encloses it up to where the jump is taken in.

A report begins with the name of the script and the number of the line; inside of a builtin
command its name follows.
-/

namespace Conch.Script

/-- A variable: its value, if it has been given one, whether it is handed on to programs, and
whether it can never change again. -/
structure Variable where
  value : Option Text
  exported : Bool := false
  readOnly : Bool := false
  deriving DecidableEq, Repr

/-- Children that were created together: the number by which the script can name them, their process
ids with how they have ended, and whether the script has waited for them. -/
structure Group where
  number : Nat
  members : List (ProcessId × Option Completion)
  isWaited : Bool := false
  deriving DecidableEq, Repr

/-- Have all of them ended? -/
def Group.hasEnded (group : Group) : Bool :=
  group.members.all fun member => member.2.isSome

/-- Note that a process has ended. -/
def Group.noteEnd (pid : ProcessId) (cause : Completion) (group : Group) : Group :=
  { group with
    members := group.members.map fun member =>
      if member.1 = pid then (pid, some cause) else member }

/-- The status by which a process ended. -/
def statusOf : Completion → Nat
  | .exited code => code.toNat % 256
  | .killed signal => 128 + signal.toNat

/-- The status of the last of them. -/
def Group.status (group : Group) : Nat :=
  match group.members.getLast? with
  | some (_, some cause) => statusOf cause
  | _ => 0

/-! ## Tables -/

/-- The place of a name in a table of so many places: the sum of its bytes, of which the first
counts seventeen times. -/
def placeOf (count : Nat) (name : Text) : Nat :=
  let bytes := Utf8.encode name
  bytes.foldl (fun sum byte => sum + byte.toNat) ((bytes.headD 0).toNat * 16) % count

/-- The entries of a table of so many places, in the order of their places; those that share a place
come in the order of their creation. -/
def tableOrder {α : Type} (count : Nat) (entries : List (Text × α)) : List (Text × α) :=
  (List.range count).flatMap fun place =>
    entries.filter fun entry => placeOf count entry.1 == place

/-- How many places there are in the tables of variables and of aliases. -/
def usualPlaces : Nat := 39

/-- Put an entry where there is one with its name already, or else at the end. -/
def putEntry {α : Type} (name : Text) (a : α) (entries : List (Text × α)) : List (Text × α) :=
  if entries.any fun entry => entry.1 == name then
    entries.map fun entry => if entry.1 == name then (name, a) else entry
  else entries ++ [(name, a)]

/-! ## The runner -/

/-- Where a program has been found: the number of its directory in the search path, and whether the
working directory has changed since. -/
structure Location where
  index : Nat
  isStale : Bool := false
  deriving DecidableEq, Repr

/-- What the one who runs a script remembers.

There are the name of the script and its parameters, the variables, with what they were before
functions made them their own, the functions, where programs have been found, the aliases, the texts
in the script that redirections read, and the options.  Of statuses there are that of the last
command, that of the last clause whose output was taken, and the one before the actions of signals,
while these are run.  `traps` tells what is done on signals, where zero stands for the end of the
script, and `fixed` which ones the script may not provide for.  Children come youngest first,
`loops` and `calls` tell how many loops and functions are around, and `optionPlace` where the
command that reads options has got to: the number of the next parameter, and the position in the one
before it. -/
structure Runner where
  name : Text
  parameters : List Text := []
  bindings : List (Text × Variable) := []
  hidden : List (List (Text × Option Variable)) := []
  functions : List (Text × Clause) := []
  located : List (Text × Location) := []
  aliases : List (Text × Text) := []
  documents : List (Nat × Template) := []
  documentCount : Nat := 0
  options : List Char := []
  status : Nat := 0
  outputStatus : Nat := 0
  keptStatus : Option Nat := none
  line : Nat := 0
  command : Option Text := none
  directory : Text := []
  traps : List (Nat × Text) := []
  fixed : List Nat := []
  groups : List Group := []
  lastBackground : Option ProcessId := none
  pid : ProcessId
  loops : Nat := 0
  calls : Nat := 0
  optionPlace : Nat × Option Nat := (1, none)

/-- Why a runner does not just go on: the script ends, something has failed and has been reported,
loops are left, of which the last may go on with its next round, or the function or the file is
left. -/
inductive Jump where
  | leave
  | failed
  | breakLoops (count : Nat)
  | continueLoop (count : Nat)
  | returned
  deriving DecidableEq, Repr

/-- What a runner does. -/
abbrev Running (α : Type) := ExceptT Jump (StateT Runner Task) α

namespace Running

/-- Do a task. -/
def task {α : Type} (t : Task α) : Running α :=
  ExceptT.lift (StateT.lift t)

/-- Make a request. -/
def ask (request : Request) : Running request.Answer :=
  task (Task.ask request)

/-- See what there is. -/
def look : Running View :=
  task Task.look

/-- Write text to a descriptor. -/
def write (descriptor : Nat) (text : Text) : Running Unit :=
  task (Task.write descriptor text)

/-- Do something, and then something else whether that has jumped or not. -/
def afterwards {α : Type} (action : Running α) (last : Running Unit) : Running α := do
  let result ← tryCatch (do pure (.ok (← action))) fun jump =>
    pure (.error jump : Except Jump α)
  last
  match result with
  | .ok a => pure a
  | .error jump => throw jump

/-- Report something. -/
def report (text : Text) : Running Unit := do
  let r ← get
  let command := match r.command with
    | some name => name ++ ": ".toList
    | none => []
  write Task.errors
    (r.name ++ ": ".toList ++ Text.decimal r.line ++ ": ".toList ++ command ++ text ++ ['\n'])

/-- The status of a script that has failed. -/
def failureStatus : Nat := 2

/-- Report something and fail. -/
def fail {α : Type} (text : Text) : Running α := do
  report text
  modify fun r => { r with status := failureStatus }
  throw .failed

/-- Set the status. -/
def setStatus (status : Nat) : Running Unit :=
  modify fun r => { r with status }

/-- What a runner does, for a process: it leaves with the status. -/
def routine (action : Running Unit) (r : Runner) : Routine :=
  action r fun result => .done result.2.status

/-! ## Variables -/

/-- Is an option set? -/
def hasOption (c : Char) : Running Bool := do
  pure ((← get).options.contains c)

/-- The variable with a name. -/
def variableNamed? (name : Text) : Running (Option Variable) := do
  pure ((← get).bindings.lookup name)

/-- The value of a variable, if it has one. -/
def value? (name : Text) : Running (Option Text) := do
  pure ((← variableNamed? name).bind Variable.value)

/-- The variable that says where the command is that reads options. -/
def optionVariable : Text := "OPTIND".toList

/-- The variable that says where programs are looked for. -/
def searchVariable : Text := "PATH".toList

/-- Where programs are looked for unless something else is said. -/
def usualDirectories : Text :=
  "/usr/local/sbin:/usr/local/bin:/usr/sbin:/usr/bin:/sbin:/bin".toList

/-- Forget where programs are, if that is what a variable is about. -/
def noteChange (name : Text) : Running Unit :=
  if name = searchVariable then modify fun r => { r with located := [] } else pure ()

/-- Change what is known of a variable; it must not be protected. -/
def setVariable (name : Text) (v : Variable) : Running Unit := do
  if (← variableNamed? name).any Variable.readOnly then
    fail (name ++ ": is read only".toList)
  if name = optionVariable then
    let index := (v.value.bind Text.natural?).getD 1
    modify fun r => { r with optionPlace := (max 1 index, none) }
  modify fun r => { r with bindings := putEntry name v r.bindings }
  noteChange name

/-- Give a variable a value. -/
def assign (name value : Text) : Running Unit := do
  let known := (← variableNamed? name).getD { value := none }
  let exported := known.exported || (← hasOption 'a')
  setVariable name { known with value := some value, exported }

/-- Give a variable a value and hand it on to programs. -/
def assignExported (name value : Text) : Running Unit := do
  let known := (← variableNamed? name).getD { value := none }
  setVariable name { known with value := some value, exported := true }

/-- Take a variable away. -/
def unassign (name : Text) : Running Unit := do
  if (← variableNamed? name).any Variable.readOnly then
    fail (name ++ ": is read only".toList)
  modify fun r => { r with bindings := r.bindings.filter fun entry => entry.1 != name }
  noteChange name

/-- The variables that are handed on to programs. -/
def exportedVariables (r : Runner) : List (Text × Text) :=
  (tableOrder usualPlaces r.bindings).filterMap fun entry =>
    if entry.2.exported then entry.2.value.map fun value => (entry.1, value) else none

/-- Let variables be what they were after something has been done. -/
def withHidden {α : Type} (action : Running α) : Running α := do
  modify fun r => { r with hidden := [] :: r.hidden }
  afterwards action do
    let saved := (← get).hidden.headD []
    modify fun r =>
      let restore (bindings : List (Text × Variable)) (entry : Text × Option Variable) :
          List (Text × Variable) :=
        match entry.2 with
        | some v => putEntry entry.1 v bindings
        | none => bindings.filter fun other => other.1 != entry.1
      { r with bindings := saved.foldl restore r.bindings, hidden := r.hidden.drop 1 }
    saved.forM fun entry => noteChange entry.1

/-- Remember what a variable is, for the end of the function. -/
def hide (name : Text) : Running Unit :=
  modify fun r =>
    match r.hidden with
    | [] => r
    | saved :: rest =>
      if saved.any fun entry => entry.1 == name then r
      else { r with hidden := ((name, r.bindings.lookup name) :: saved) :: rest }

/-- Refuse a word that should have been a number. -/
def failNumber {α : Type} (word : Text) : Running α :=
  fail ("Illegal number: ".toList ++ word)

/-- The number that a word stands for, which is neither negative nor too large. -/
def number (word : Text) : Running Nat :=
  match Text.paddedInteger? word with
  | some n => if 0 ≤ n && n < Int.pow 2 31 then pure n.toNat else failNumber word
  | none => failNumber word

end Running

end Conch.Script
