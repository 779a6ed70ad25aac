import Conch.Script.Builtin.Meaning
import Conch.Script.Redirection

/-!
# Running clauses

A clause is run by an `Evaluator`, and running one kind of clause means to run the clauses it is
made of.  So each kind has a function here that is given the evaluator for the parts, and
`evaluate` ties them together; since functions can call themselves, their depth is bounded.

Before and after each clause the actions of the signals are run that have been noted down in the
meantime.  A command that fails ends the script if this is wanted and nobody tests its status.

What is last to be done in a process need not have a process of its own.
-/

namespace Conch.Script

open Running

/-- How a clause is run: whether somebody tests its status, and whether the process does nothing
after it. -/
structure Manner where
  tested : Bool := false
  isLast : Bool := false
  deriving DecidableEq, Repr

/-- Whoever runs clauses. -/
abbrev Evaluator := Manner → Clause → Running Unit

/-- Where a script is read from: the descriptor from which more text comes, if any does, the
beginning of a character that has not been read to its end, and the text that has been read. -/
structure Input where
  descriptor : Option Nat
  state : Utf8.State := .start
  reader : Reader

namespace Input

/-- How many bytes are read at once. -/
def blockSize : Nat := 8192

/-- The input that a text is. -/
def ofText (text : Text) (r : Runner) : Input where
  descriptor := none
  reader := { rest := text, complete := true, documentCount := r.documentCount }

/-- The input that comes from a descriptor. -/
def ofDescriptor (descriptor : Nat) (r : Runner) : Input where
  descriptor := some descriptor
  reader := { rest := [], complete := false, documentCount := r.documentCount }

/-- Read more text. -/
def readMore (input : Input) : Running Input := do
  let finished : Input :=
    { input with reader := { input.reader.append (Utf8.finish input.state) with complete := true } }
  match input.descriptor with
  | none => pure finished
  | some descriptor =>
    match ← task (Task.ask (.read descriptor blockSize)) with
    | .ok [] => pure finished
    | .ok bytes =>
      let (text, state) := Utf8.feedAll input.state bytes
      let text := text.filter (· != '\x00')
      pure { input with state, reader := input.reader.append text }
    | .error errno => pure (if errno = .interrupted then input else finished)

end Input

namespace Evaluator

variable (evaluate : Evaluator)

/-! ## Texts and files -/

/-- Show what has been read from a descriptor, if the script wants that. -/
def showRead (input : Input) (text : Text) : Running Unit := do
  if input.descriptor.isSome then
    if ← hasOption 'v' then write Task.errors text

/-- The lines of a text up to the end of one, by how many come before it. -/
def linesUpTo : (before : Nat) → Text → Text
  | _, [] => []
  | before, c :: rest =>
    if c = '\n' then
      match before with
      | 0 => [c]
      | before + 1 => c :: linesUpTo before rest
    else c :: linesUpTo before rest

/-- Run what is read from an input, line by line; the result says whether there was anything. -/
def runInput (manner : Manner) : (fuel : Nat) → Input → Running Bool
  | 0, _ => pure false
  | fuel + 1, input => do
    match readLineOf.run { input.reader with aliases := (← get).aliases } with
    | .error .incomplete => runInput manner fuel (← input.readMore)
    | .error (.malformed line message) =>
      showRead input (linesUpTo (line - input.reader.line) input.reader.rest)
      modify fun r => { r with line }
      fail message.toList
    | .ok (.none, _) =>
      showRead input input.reader.rest
      pure false
    | .ok (.clause clause isLast, reader) =>
      let ahead := input.reader.rest
      showRead input (ahead.take (ahead.length - reader.rest.length))
      modify fun r => { r with
        documents := r.documents ++ reader.documents, documentCount := reader.documentCount }
      evaluate { manner with isLast := manner.isLast && isLast } clause
      let more ← runInput manner fuel { input with reader := { reader with documents := [] } }
      pure (more || !clause matches .skip)

/-- Run a text; without any commands in it the status is zero. -/
def runText (manner : Manner) (text : Text) : Running Unit := do
  let ran ← evaluate.runInput manner Task.patience (.ofText text (← get))
  unless ran do setStatus 0

/-! ## Signals and the end -/

/-- Let an interrupt do to the script what it does to any process. -/
def undergoInterrupt : Running Unit := do
  let view ← look
  let _ ← task (Task.ask (.kill view.pid.raw.toInt interrupt))

/-- Run the actions of the signals that have been noted down. -/
def runTraps : Running Unit := do
  let noted : List Nat ← ask .takeNoted
  unless noted = [] do
    let r ← get
    let status := r.keptStatus.getD r.status
    modify fun r => { r with keptStatus := some status }
    let act (signal : Nat) : Running Unit := do
      match (← get).traps.lookup signal with
      | some [] => pure ()
      | some text =>
        evaluate.runText {} text
        setStatus status
      | none => if signal = interrupt then undergoInterrupt
    afterwards (noted.mergeSort.forM act) do
      modify fun after => { after with keptStatus := r.keptStatus }

/-- Does a jump lead to the end of the script by itself, so that it settles the status? -/
def Jump.settlesStatus : Jump → Bool
  | .leave | .failed => true
  | .breakLoops _ | .continueLoop _ | .returned => false

/-- Do something and end the script, with the action that is meant for its end. -/
def conclude (action : Running Unit) : Running Unit := do
  tryCatch action fun _ => pure ()
  let r ← get
  match r.traps.lookup 0 with
  | none | some [] => pure ()
  | some text =>
    modify fun r => { r with
      traps := r.traps.filter fun entry => entry.1 != 0, keptStatus := some r.status }
    let settled ← tryCatch (do evaluate.runText {} text; pure false) fun jump =>
      pure (Jump.settlesStatus jump)
    unless settled do setStatus r.status

/-! ## Children -/

/-- Do something in a child, and end there. -/
def inChild (action : Running Unit) : Running ProcessId :=
  forkChild (evaluate.conclude action)

/-- The signals that do not reach what runs in the background. -/
def foregroundSignals : List Nat := [2, 3]

/-- Get a child ready for the background.  The first of its job reads nothing. -/
def enterBackground (isFirst : Bool) : Running Unit := do
  foregroundSignals.forM fun signal => ask (.setAction signal .ignore)
  modify fun r => { r with fixed := foregroundSignals ++ r.fixed }
  if isFirst then
    ask (.close Task.input)
    let _ ← task (Task.openFile "/dev/null".toList .read Task.usualMode)

/-- Note that children have been created that are not waited for. -/
def leaveRunning (pids : List ProcessId) : Running Unit := do
  addGroup pids
  modify fun r => { r with lastBackground := pids.getLast?.or r.lastBackground }
  setStatus 0

/-- Wait for children, and take over the status of the last one. -/
def awaitChildren (pids : List ProcessId) : Running Unit := do
  addGroup pids
  if let some last := pids.getLast? then setStatus (← waitFor last)

/-- Let a descriptor refer to an end of a pipe. -/
def connect (number descriptor : Nat) : Running Unit := do
  if number != descriptor then
    let _ ← task (Task.ask (.duplicate number (some descriptor)))
    ask (.close number)

/-- Find the program that a part of a pipeline runs, before the part has a process of its own. -/
def locatePart : Clause → Running Unit
  | .simple _ _ (word :: _) _ => do
    if let some name := (Template.bare? word).filter isName then
      let _ ← Action.meaning name
  | _ => pure ()

/-- Create the processes of a pipeline, each reading what the one before writes; `source` is what
the first one reads. -/
def createParts (manner : Manner) (background : Bool) (isFirst : Bool) (source : Option Nat) :
    List Clause → Running (List ProcessId)
  | [] => pure []
  | part :: rest => do
    locatePart part
    let ends ← if rest.isEmpty then pure none else do pure (some (← task (Task.ask .makePipe)))
    let pid ← evaluate.inChild do
      if background then enterBackground isFirst
      if let some (reading, _) := ends then ask (.close reading)
      if let some number := source then connect number Task.input
      if let some (_, writing) := ends then connect writing Task.output
      evaluate { manner with isLast := true } part
    if let some number := source then ask (.close number)
    if let some (_, writing) := ends then ask (.close writing)
    let others ← createParts manner background false (ends.map Prod.fst) rest
    pure (pid :: others)

/-- What a clause writes, without the ends of lines at its end. -/
def outputOf (clause : Clause) : Running Text := do
  if clause matches .skip then pure []
  else
    let (source, sink) ← task (Task.ask .makePipe)
    let pid ← evaluate.inChild do
      ask (.close source)
      connect sink Task.output
      evaluate { isLast := true } clause
    ask (.close sink)
    addGroup [pid]
    let bytes := ((← task (Tool.readAll source Task.patience)).toOption).getD []
    ask (.close source)
    let status ← waitFor pid
    modify fun r => { r with outputStatus := status }
    let text := (Utf8.decodeLossy bytes).filter (· != '\x00')
    pure (text.reverse.dropWhile (· = '\n')).reverse

/-! ## Programs -/

/-- The errors that say that there is no such program. -/
def missingReasons : List Errno :=
  [.noEntry, .notDirectory, .tooManyLinks, .nameTooLong]

/-- Become the first program that can be run of those at some paths; `reason` is why none could. -/
def becomeOne (words : List Text) (environment : List (Text × Text)) :
    (reason : Errno) → List Text → Task Errno
  | reason, [] => pure reason
  | reason, path :: rest => do
    let errno ← Task.becomeAt path words environment
    becomeOne words environment
      (if errno = .noEntry || errno = .notDirectory then reason else errno) rest

/-- Become a program, which is not in the first directories of the search path; if that cannot be
done the script ends with a report. -/
def execute (path? : Option Text) (skipped : Nat) (words : List Text) : Running Unit := do
  let name := words.headD []
  let paths ←
    if name.contains Path.separator then pure [name]
    else do
      let directories ← match path? with
        | some path => pure (Action.directoriesOf path)
        | none => Action.searchDirectories
      pure ((directories.drop skipped).map fun directory => Action.pathIn directory name)
  let environment := exportedVariables (← get)
  let reason ← task (becomeOne words environment .noEntry paths)
  report (name ++ ": ".toList ++ missingText "not found" (.system reason))
  setStatus (if missingReasons.contains reason then 127 else 126)
  throw .leave

/-- Run a program. -/
def runProgram (manner : Manner) (path? : Option Text) (words : List Text) : Running Unit := do
  let name := words.headD []
  match ← Action.programNamed name path? with
  | .missing reason =>
    report (name ++ ": ".toList ++ missingText "not found" (.system reason))
    setStatus 127
  | found =>
    let skipped := match found with
      | .program _ index => index
      | _ => 0
    if manner.isLast && !(← hasTraps) then execute path? skipped words
    else awaitChildren [← forkChild (execute path? skipped words)]

/-! ## Simple commands -/

/-- The words of a command.  Words that set variables keep their form after a command that is about
variables. -/
def commandWords (words : List Template) : Running (List Text) := do
  words.foldlM (fun (before : List Text) word => do
    let isAbout := before.head?.any fun name =>
      ["export", "local", "readonly"].any fun known => known.toList == name
    match if isAbout then assignment? word else none with
    | some (name, value) =>
      pure (before ++ [name ++ '=' :: (← expandValue evaluate.outputOf value)])
    | none => pure (before ++ (← expandWords evaluate.outputOf word))) []

/-- The command that the arguments of `command` ask to run, if they do, and whether it is looked for
where programs are usually. -/
def namedCommand? : List Text → Option (Bool × List Text)
  | [] => none
  | ['-', '-'] :: rest => if rest = [] then none else some (false, rest)
  | ('-' :: letters) :: rest =>
    if letters != [] && letters.all (· = 'p') then
      (namedCommand? rest).map fun (_, words) => (true, words)
    else none
  | words => some (false, words)

/-- How a command has been named: whether it is the command of another command, and where it is
looked for, if that is not the search path. -/
structure Naming where
  indirect : Bool := false
  path? : Option Text := none
  deriving DecidableEq, Repr

/-- The command that words ask to run, and how it has been named. -/
def directCommand : (fuel : Nat) → Naming → List Text → List Text × Naming
  | fuel + 1, naming, name :: arguments =>
    match if name = "command".toList then namedCommand? arguments else none with
    | some (isUsual, words) =>
      directCommand fuel ⟨true, if isUsual then some usualDirectories else naming.path?⟩ words
    | none => (name :: arguments, naming)
  | _, naming, words => (words, naming)

/-- Do the work of a builtin command.  If it fails the script goes on, unless it is special. -/
def runBuiltin (name : Text) (special : Bool) (action : Running Reply) : Running Unit := do
  let before := (← get).command
  modify fun r => { r with command := some name }
  let perform : Running Unit := do
    let reply ← action
    let failed ← match reply.output with
      | [] => pure false
      | bytes => do
        match ← task (Task.ask (.write Task.output bytes)) with
        | .ok () => pure false
        | .error _ =>
          report (name ++ ": I/O error".toList)
          pure true
    setStatus (if failed then reply.status ||| 1 else reply.status)
  let restored := afterwards perform do
    modify fun r => { r with command := before }
  tryCatch restored fun jump => if jump = .failed && !special then pure () else throw jump
  collectEnded Task.patience

/-- Find the file that the command `.` is given. -/
def findSource (name : Text) : Running Text := do
  if name.contains Path.separator then pure name
  else
    let view ← look
    let directories ← Action.searchDirectories
    let paths := directories.map fun directory => Action.pathIn directory name
    match paths.find? fun path => (view.find path).toOption.any Node.isRegular with
    | some path => pure path
    | none => fail (name ++ ": not found".toList)

/-- Run the commands in a file. -/
def runSource (arguments : List Text) : Running Reply := do
  match arguments.filter (· != ['-', '-']) with
  | [] => pure {}
  | name :: _ =>
    let path ← findSource name
    let opened ← openTarget path .read
    let kept ← task (Task.ask (.duplicate opened none))
    ask (.close opened)
    let descriptor := kept.toOption.getD opened
    modify fun r => { r with command := some path }
    let ran ← afterwards
      (tryCatch (evaluate.runInput {} Task.patience (.ofDescriptor descriptor (← get)))
        fun jump => if jump = .returned then pure true else throw jump)
      (ask (.close descriptor))
    let status := (← get).status
    pure (.ofStatus (if ran then status else 0))

/-- The action of a builtin command. -/
def actionOf (manner : Manner) (name : Text) (arguments : List Text) : Running Reply := do
  match Action.ofName? name with
  | some action => action arguments
  | none =>
    match String.ofList name with
    | "eval" =>
      let words := if arguments.head? = some ['-', '-'] then arguments.drop 1 else arguments
      evaluate.runText { tested := manner.tested } (Tool.spaced words)
      pure (.ofStatus (← get).status)
    | "." => evaluate.runSource arguments
    | "exec" =>
      let words := if arguments.head? = some ['-', '-'] then arguments.drop 1 else arguments
      if words != [] then execute none 0 words
      pure {}
    | "type" => Action.type arguments
    | "hash" => Action.hash arguments
    | _ =>
      let (options, names) ← Action.readFlags ['p', 'v', 'V'] arguments
      let path? := if options.contains 'p' then some usualDirectories else none
      if options.contains 'V' then Action.describeAll path? true (names.take 1)
      else if options.contains 'v' then Action.describeAll path? false (names.take 1)
      else pure {}

/-- How many functions can be called inside of each other. -/
def callLimit : Nat := 1000

/-- Call a function. -/
def callFunction (manner : Manner) (body : Clause) (arguments : List Text) : Running Unit := do
  let r ← get
  if callLimit ≤ r.calls then
    fail ("Maximum function recursion depth (".toList ++ Text.decimal callLimit ++
      ") reached".toList)
  modify fun r => { r with
    parameters := arguments, loops := 0, calls := r.calls + 1, optionPlace := (1, none) }
  let call := tryCatch (evaluate { tested := manner.tested } body) fun jump =>
    if jump = .returned then pure () else throw jump
  afterwards call do
    modify fun after => { after with
      parameters := r.parameters, loops := r.loops, calls := r.calls
      optionPlace := r.optionPlace }

/-- Show a command before it is run. -/
def trace (descriptor : Nat) (assignments : List (Text × Text)) (words : List Text) :
    Running Unit := do
  if ← hasOption 'x' then
    let mark := (← value? "PS4".toList).getD "+ ".toList
    let set := assignments.map fun entry => entry.1 ++ '=' :: entry.2
    write descriptor (mark ++ Tool.spaced (set ++ words) ++ ['\n'])

/-- Set the variables that a command sets.  They are handed on to it if they are not meant to
stay. -/
def assignAll (staying exported : Bool) (assignments : List (Text × Template)) :
    Running (List (Text × Text)) :=
  assignments.mapM fun (name, template) => do
    let value ← expandValue evaluate.outputOf template
    unless staying do hide name
    if exported || !staying then assignExported name value else assign name value
    pure (name, value)

/-- Run a simple command. -/
def simple (manner : Manner) (line : Nat) (assignments : List (Text × Template))
    (words : List Template) (redirects : List Redirect) : Running Unit := do
  modify fun r => { r with line, outputStatus := 0 }
  let words ← evaluate.commandWords words
  let (command, naming) := directCommand words.length {} words
  let name := command.headD []
  let meaning? ←
    if command = [] then pure (some .builtin) else Action.ownMeaning? name !naming.indirect
  let special := !naming.indirect && command != [] && Action.isSpecial name
  let replaces := name = "exec".toList
  let staying := command = [] || special
  let perform (kept : List KeptDescriptor) : Running Unit := do
    let set ← evaluate.assignAll staying (replaces && command.length > 1) assignments
    let errors := kept.find? fun k => k.descriptor == Task.errors
    trace ((errors.bind KeptDescriptor.kept).getD Task.errors) set words
    match meaning? with
    | some (.function body) => evaluate.callFunction manner body (command.drop 1)
    | some _ =>
      if command = [] then modify fun r => { r with status := r.outputStatus }
      else runBuiltin name special (evaluate.actionOf manner name (command.drop 1))
    | none => runProgram manner naming.path? command
  let performed (kept : List KeptDescriptor) : Running Unit :=
    if staying then perform kept else withHidden (perform kept)
  let made ←
    if replaces then do
      match ← tryRedirects evaluate.outputOf redirects with
      | none => pure false
      | some kept =>
        performed kept
        forgetKept kept
        pure true
    else withRedirects evaluate.outputOf redirects performed
  if !made && special then throw .failed

/-! ## Clauses of other kinds -/

/-- How a round of a loop ends: the loop is over, the next round begins at once, or the round has
come to its end. -/
inductive RoundEnd where
  | broken
  | continued
  | finished
  deriving DecidableEq, Repr

/-- Do a part of a round; jumps that concern this loop only are taken in. -/
def round (part : Running Unit) : Running RoundEnd :=
  tryCatch (do part; pure .finished) fun
    | .breakLoops (n + 2) => throw (.breakLoops (n + 1))
    | .continueLoop (n + 2) => throw (.continueLoop (n + 1))
    | .breakLoops _ => pure .broken
    | .continueLoop _ => pure .continued
    | jump => throw jump

/-- Do something inside of a loop. -/
def inLoop {α : Type} (action : Running α) : Running α := do
  modify fun r => { r with loops := r.loops + 1 }
  afterwards action do
    modify fun r => { r with loops := r.loops - 1 }

/-- Run the body as long as the condition wants it; the status is that of the last body. -/
def rounds (manner : Manner) (whileSuccess : Bool) (condition body : Clause) :
    (fuel : Nat) → (status : Nat) → Running Nat
  | 0, status => pure status
  | fuel + 1, status => do
    match ← round (evaluate { tested := true } condition) with
    | .broken => pure status
    | .continued => rounds manner whileSuccess condition body fuel status
    | .finished =>
      if ((← get).status = 0) != (whileSuccess = true) then pure status
      else
        let ending ← round (evaluate { tested := manner.tested } body)
        let status := (← get).status
        if ending = .broken then pure status
        else rounds manner whileSuccess condition body fuel status

/-- Run the body for each of some texts; the status is that of the last body. -/
def roundsFor (manner : Manner) (name : Text) (body : Clause) :
    (status : Nat) → List Text → Running Nat
  | status, [] => pure status
  | _, text :: rest => do
    assign name text
    let ending ← round (evaluate { tested := manner.tested } body)
    let status := (← get).status
    if ending = .broken then pure status else roundsFor manner name body status rest

/-- The first clause of whose patterns one matches a text. -/
def selected (subject : Text) :
    List (List (List Fragment) × Clause) → Running (Option Clause)
  | [] => pure none
  | (patterns, body) :: rest => do
    if ← matchesOne patterns then pure (some body) else selected subject rest
where
  /-- Does one of the patterns match? -/
  matchesOne : List (List Fragment) → Running Bool
    | [] => pure false
    | pattern :: others => do
      if Pattern.accepts (← expandPattern evaluate.outputOf pattern) subject then pure true
      else matchesOne others

/-- Run a clause in a process of its own, or in this one if nothing is left to do in it. -/
def subshell (manner : Manner) (body : Clause) (redirects : List Redirect) : Running Unit := do
  let targets ← redirects.mapM (targetOf evaluate.outputOf)
  let action : Running Unit := do
    forgetKept (← redirectAll evaluate.outputOf [] targets)
    evaluate { manner with isLast := true } body
  if manner.isLast && !(← hasTraps) then
    action
    throw .leave
  else awaitChildren [← evaluate.inChild action]

/-- Run a clause, given whoever runs the clauses in it. -/
def perform (manner : Manner) : Clause → Running Unit
  | .skip => pure ()
  | .simple line assignments words redirects =>
    evaluate.simple manner line assignments words redirects
  | .redirected line body redirects => do
    modify fun r => { r with line }
    let made ← withRedirects evaluate.outputOf redirects fun _ =>
      evaluate { tested := manner.tested } body
    if !made && !manner.tested && (← hasOption 'e') then throw .leave
  | .subshell line body redirects => do
    modify fun r => { r with line }
    evaluate.subshell manner body redirects
  | .background line body => do
    modify fun r => { r with line }
    let pid ← evaluate.inChild do
      enterBackground true
      evaluate { isLast := true } body
    leaveRunning [pid]
  | .pipeline parts waited => do
    let pids ← evaluate.createParts manner (!waited) true none parts
    if waited then awaitChildren pids else leaveRunning pids
  | .sequence first second => do
    evaluate { tested := manner.tested } first
    evaluate manner second
  | .both first second => do
    evaluate { tested := true } first
    if (← get).status = 0 then evaluate manner second
  | .either first second => do
    evaluate { tested := true } first
    if (← get).status != 0 then evaluate manner second
  | .negate body => do
    evaluate { tested := true } body
    setStatus (if (← get).status = 0 then 1 else 0)
  | .choose condition yes no => do
    evaluate { tested := true } condition
    let chosen := if (← get).status = 0 then yes else no
    if chosen matches .skip then setStatus 0 else evaluate manner chosen
  | .loop whileSuccess condition body => do
    setStatus (← inLoop (evaluate.rounds manner whileSuccess condition body Task.patience 0))
  | .each line name words body => do
    modify fun r => { r with line }
    let texts ← words.mapM (expandWords evaluate.outputOf)
    setStatus (← inLoop (evaluate.roundsFor manner name body 0 texts.flatten))
  | .select line subject cases => do
    modify fun r => { r with line }
    let subject ← expandText evaluate.outputOf subject
    match ← evaluate.selected subject cases with
    | none | some .skip => setStatus 0
    | some body => evaluate manner body
  | .define _ name body => do
    modify fun r => { r with
      functions := (name, body) :: r.functions.filter fun entry => entry.1 != name }
    Action.forgetLocation name
    setStatus 0

/-- Is the clause one whose failure can end the script? -/
def isCommand : Clause → Bool
  | .simple .. | .subshell .. | .pipeline .. => true
  | _ => false

/-- Run a clause with what comes before and after it. -/
def around (manner : Manner) (clause : Clause) : Running Unit := do
  unless ← hasOption 'n' do
    evaluate.runTraps
    evaluate.perform manner clause
    evaluate.runTraps
    if isCommand clause && !manner.tested && (← get).status != 0 && (← hasOption 'e') then
      throw .leave

end Evaluator

/-- The signal of a process that uses memory that it does not have. -/
def memoryFault : Nat := 11

/-- Die because there is no more memory for what is being done. -/
def exhaustMemory : Running Unit := do
  let view ← look
  let _ ← task (Task.ask (.kill view.pid.raw.toInt memoryFault))
  throw .leave

/-- Run a clause; clauses can be at most so deep inside of each other. -/
def evaluateWithin : (depth : Nat) → Evaluator
  | 0 => fun _ _ => exhaustMemory
  | depth + 1 => fun manner clause =>
    Evaluator.around (fun manner clause => evaluateWithin depth manner clause) manner clause

/-- Run a clause. -/
def evaluate : Evaluator :=
  evaluateWithin 10000

end Conch.Script
