import Conch.Script.Evaluation

/-!
# Starting a script

The program `sh` gets options, and then its script: a text after the option for it, or the path
of a file, or else it reads its standard input.  What follows are the parameters.

It knows its variables from whoever started it, except for those that have a meaning of their own
for the script.
-/

namespace Conch.Script

open Running

/-- The variables whose first values do not come from elsewhere. -/
def ownVariables (view : View) : List (Text × Text) :=
  [("IFS".toList, usualSeparators), ("OPTIND".toList, ['1']),
    ("PPID".toList, view.parent.text.toList)]

/-- The variables that have values even if nobody gave them any. -/
def usualVariables : List (Text × Text) :=
  [(searchVariable, usualDirectories), ("PS1".toList, "# ".toList), ("PS2".toList, "> ".toList),
    ("PS4".toList, "+ ".toList)]

/-- The name by which whoever runs a script goes before it has read its arguments. -/
def plainName : Text := "sh".toList

/-- Whoever runs a script, before it knows which. -/
def Runner.fresh (view : View) (environment : List (Text × Text)) : Runner :=
  let put (exported : Bool) (known : List (Text × Variable)) (entry : Text × Text) :=
    let exported := exported || (known.lookup entry.1).any Variable.exported
    putEntry entry.1 { value := some entry.2, exported : Variable } known
  let usual := usualVariables.foldl (put false) []
  let given := (environment.filter fun entry => isName entry.1).foldl (put true) usual
  { name := plainName
    bindings := (ownVariables view).foldl (put false) given
    fixed := view.ignored
    pid := view.pid }

/-- Find out by which path the working directory is known: by the one that was handed on, if it is
right. -/
def findDirectory : Running Unit := do
  let view ← look
  let isRight (path : Text) : Bool :=
    Path.isAbsolute path && (view.files.find view.directory path).toOption == some view.directory
  Action.setDirectory ((← value? "PWD".toList).filter isRight)

/-- Read the options in the letters of an argument; the result says whether the script is an
argument, and which arguments are left. -/
def startLetters (isOn : Bool) : Text → List Text → Running (Bool × List Text)
  | [], rest => pure (false, rest)
  | 'c' :: letters, rest => do pure (true, (← startLetters isOn letters rest).2)
  | 'l' :: letters, rest => startLetters isOn letters rest
  | 'o' :: letters, rest => do
    match rest with
    | [] => write Task.output (← Action.listOptions isOn)
    | name :: _ => Action.setNamedOption isOn name
    startLetters isOn letters (rest.drop 1)
  | c :: letters, rest => do
    Action.setOption isOn c
    startLetters isOn letters rest

/-- Read the options at the beginning of at most `fuel` arguments. -/
def startOptions : (fuel : Nat) → List Text → Running (Bool × List Text)
  | 0, arguments => pure (false, arguments)
  | fuel + 1, arguments => do
    match arguments with
    | ['-'] :: rest | ['-', '-'] :: rest => pure (false, rest)
    | (sign :: letters) :: rest =>
      if sign = '-' || sign = '+' then
        let (isText, rest) ← startLetters (sign = '-') letters rest
        let (more, rest) ← startOptions fuel rest
        pure (isText || more, rest)
      else pure (false, arguments)
    | arguments => pure (false, arguments)

/-- Open a script, under a descriptor that is out of the way. -/
def openScript (path : Text) : Running Nat := do
  let opened ← openTarget path .read
  match ← task (Task.ask (.duplicate opened none)) with
  | .ok descriptor =>
    ask (.close opened)
    pure descriptor
  | .error _ => pure opened

/-- Run commands from a descriptor. -/
def runDescriptor (descriptor : Nat) : Running Unit := do
  let _ ← evaluate.runInput {} Task.patience (.ofDescriptor descriptor (← get))

/-- Read the arguments, and run the script that they ask for. -/
def start (name : Text) (arguments : List Text) : Running Unit := do
  findDirectory
  modify fun r => { r with name }
  let (isText, words) ← startOptions (arguments.length + 1) arguments
  let readsInput := (← get).options.contains 's'
  match isText, words with
  | true, [] => fail "-c requires an argument".toList
  | true, text :: words =>
    modify fun r => { r with name := words.headD r.name, parameters := words.drop 1 }
    Action.checkMonitor
    evaluate.runText { isLast := !readsInput } text
    if readsInput then runDescriptor Task.input
  | false, [] =>
    Action.setOption true 's'
    Action.checkMonitor
    runDescriptor Task.input
  | false, path :: parameters =>
    if readsInput then
      modify fun r => { r with parameters := words }
      Action.checkMonitor
      runDescriptor Task.input
    else
      let descriptor ← openScript path
      modify fun r => { r with name := path, parameters }
      Action.checkMonitor
      runDescriptor descriptor

/-- The program `sh`. -/
def routine (words : List Text) (environment : List (Text × Text)) : Routine :=
  Task.look fun view =>
    Running.routine (evaluate.conclude (start (words.headD []) (words.drop 1)))
      (Runner.fresh view environment)

end Conch.Script
