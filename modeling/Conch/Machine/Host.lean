import Conch.Machine.Schedule
import Conch.Shell.Host

/-!
# The machine as the host of a shell

The shell shares its standard streams with its children, so a child that reads takes bytes away
from the shell.  While the shell waits for a child the other processes go on as well; at any
other time they stand still.

A child of the shell first opens the targets of its redirections, the input before the output,
and reports a failure the way the shell would; only then does it let go of the control signals and
become the program.
-/

namespace Conch.Machine

/-! ## Children -/

/-- The variables that the system hands to the shell. -/
def systemVariables : List (Text × Text) :=
  [("PATH".toList, [':'].intercalate Task.searchPath), ("LC_ALL".toList, ['C'])]

/-- Set a variable that is handed on to children. -/
def exportVariable (m : Machine) (name : String) (value : Text) : Machine :=
  { m with
    environment := (name.toList, value) :: m.environment.filter fun v => v.1 != name.toList }

/-- A child reports an error and leaves. -/
def childFailure (e : ShellError) : Task Nat := do
  Task.write Task.errors s!"{Shell.reportName}: {e.message}\n".toList
  pure 1

/-- Open the target of a redirection for a child. -/
def openTarget (direction : Direction) (path : Text) : Task (Except IoError Nat) :=
  match direction with
  | .input => Task.openFile path .read FileTree.outputMode
  | .output => Task.openFile path .write FileTree.outputMode

/-- Let a descriptor refer to what was opened for it. -/
def connect (opened : Option Nat) (descriptor : Nat) : Task Unit := do
  if let some number := opened then
    if number != descriptor then
      let _ ← Task.ask (.duplicate number (some descriptor))
      Task.ask (.close number)

/-- Open a target if there is one, and go on. -/
def withTarget (direction : Direction) (target : Option Text)
    (next : Option Nat → Task Nat) : Task Nat := do
  match target with
  | none => next none
  | some path =>
    match ← openTarget direction path with
    | .error reason => childFailure (.cannotOpen path direction reason)
    | .ok number => next (some number)

/-- What a child of the shell does. -/
def childTask (command : Command) (environment : List (Text × Text)) : Task Nat :=
  withTarget .input command.redirects.input fun input =>
    withTarget .output command.redirects.output fun output => do
      connect input Task.input
      connect output Task.output
      Task.ask .unblock
      let errno ← Task.become command.argv environment
      childFailure (.cannotRun (command.argv.headD []) errno)

/-- The descriptors that a child of the shell has at first. -/
def standardDescriptors : List Descriptor :=
  [Task.input, Task.output, Task.errors].map fun number => { number, opening := number }

/-- Create a child of the shell. -/
def createChild (launch : Launch) (m : Machine) : Option ProcessId × Machine :=
  let pid : ProcessId := ⟨Int32.ofInt m.nextPid⟩
  let home := (m.home.map fun home => ("HOME".toList, home)).toList
  let p : Process :=
    { pid
      parent := m.shellPid
      reception := .ofControl launch.signals
      directory := m.directory
      mask := m.mask
      descriptors := standardDescriptors
      routine := Task.routine
        (childTask launch.command (m.environment ++ home ++ systemVariables)) }
  (some pid, { m with
    children := m.children.spawn pid
    background := m.background ++ (if launch.command.background then [pid] else [])
    running := m.running ++ [p]
    nextPid := m.nextPid + 1 })

/-- Ask about a child without waiting. -/
def poll (pid : ProcessId) (m : Machine) : WaitAnswer × Machine :=
  let (answer, children) := Children.poll pid m.children
  (answer, { m with children })

/-- Wait for a child. -/
def wait (pid : ProcessId) (m : Machine) : List WaitAnswer × Machine :=
  let (answer, m) := (m.awaitEnd pid).poll pid
  (if answer = .stillAlive then [] else [answer], m)

/-- Send the terminate signal to the children. -/
def terminateGroup (m : Machine) : Machine :=
  m.running.foldl (fun m p => (m.send p.pid.raw.toInt ControlSignal.terminate.number.toNat).2) m

/-! ## Input -/

/-- The answers to reads of a file from a position on. -/
def fileAnswers (m : Machine) (file : FileId) (offset : Nat) : List ReadAnswer :=
  if m.files.isDirectory file then [.failed .isDirectory]
  else ReadAnswer.chunks ((m.files.contents file).drop offset)

/-- The position after so many reads of a file. -/
def offsetAfter (m : Machine) (file : FileId) (offset reads : Nat) : Nat :=
  max offset (min (m.files.contents file).length (offset + reads * ReadAnswer.chunkSize))

/-- Lines that may be added to a file while it is being read. -/
def leeway : Nat := 65536

/-- More reads of a file than this have no answer. -/
def fileBound (m : Machine) (file : FileId) : Nat :=
  (m.files.contents file).length + leeway

/-- The answer to a read that takes up an event. -/
def eventAnswers : FeedEvent → List ReadAnswer
  | .send bytes => ReadAnswer.chunks bytes
  | .signal number => if Shell.harmlessSignals.contains number then [] else [.interrupted]
  | .close => [.data []]

/-- Take up events until one answers the read. -/
def takeEvents (m : Machine) : List FeedEvent → Machine
  | [] => { m with feed := {} }
  | event :: events =>
    let m := { m with marks := m.marks ++ [(m.output.length, m.errors.length)] }
    match event with
    | .send [] => m.takeEvents events
    | .send bytes => { m with feed := ⟨bytes.drop ReadAnswer.chunkSize, events⟩ }
    | .signal number =>
      let m := { m with feed := ⟨[], events⟩ }.sendShell number
      if Shell.harmlessSignals.contains number then m.takeEvents events else m
    | .close => { m with feed := ⟨[], events⟩ }

/-- The machine after a read of the feed. -/
def readOnce (m : Machine) : Machine :=
  match m.feed.available with
  | [] => m.takeEvents m.feed.events
  | bytes => { m with feed.available := bytes.drop ReadAnswer.chunkSize }

/-- The file that standard input is, and the position in it. -/
def inputFile? (m : Machine) : Option (FileId × Nat) :=
  match m.openings[Task.input]? with
  | some { endpoint := .file file, offset, .. } => some (file, offset)
  | _ => none

/-- The standard input of the shell. -/
def standardInput : InputStream Machine where
  answers m :=
    match m.inputFile? with
    | some (file, offset) => m.fileAnswers file offset
    | none => ReadAnswer.chunks m.feed.available ++ m.feed.events.flatMap eventAnswers
  advance n m :=
    match m.inputFile? with
    | some (file, offset) => m.moveTo Task.input (m.offsetAfter file offset n)
    | none => n.repeat readOnce m
  bound m :=
    match m.inputFile? with
    | some (file, _) => m.fileBound file
    | none => m.feed.available.length +
        (m.feed.events.map fun event =>
          ((eventAnswers event).map fun a => a.bytes.length + 1).foldr (· + ·) 0).foldr (· + ·) 0

/-- The shell reads from a pipe, and waits until it can. -/
def readLinesOnce (index : Nat) (file : FileId) (m : Machine) : ReadAnswer × Machine :=
  let m := m.awaitPipe file
  match (m.pipe file).buffer.take ReadAnswer.chunkSize with
  | [] => (.data [], m.closeLines index)
  | bytes =>
    (.data bytes, m.setPipe file fun pipe =>
      { pipe with buffer := pipe.buffer.drop bytes.length })

/-- The answers to reads of a pipe, up to the one that tells of its end. -/
def pipeAnswers (index : Nat) (file : FileId) : (fuel : Nat) → Machine → List ReadAnswer
  | 0, _ => []
  | fuel + 1, m =>
    match readLinesOnce index file m with
    | (.data [], _) => [.data []]
    | (answer, m) => answer :: pipeAnswers index file fuel m

/-- The stream of a file that has been opened for reading. -/
def fileStream (index : Nat) : InputStream Machine where
  answers m :=
    match m.opened[index]? with
    | none | some (none, _) => []
    | some (some file, offset) =>
      if m.files.node? file = some .pipe then pipeAnswers index file leeway m
      else m.fileAnswers file offset
  advance n m :=
    match m.opened[index]? with
    | none | some (none, _) => m
    | some (some file, offset) =>
      if m.files.node? file = some .pipe then
        n.repeat (fun m => (readLinesOnce index file m).2) m
      else { m with opened := m.opened.set index (some file, m.offsetAfter file offset n) }
  bound m := ((m.opened[index]?.bind Prod.fst).map m.fileBound).getD 0

/-- What a file is for the shell that opens it. -/
def fileForShell (m : Machine) (file : FileId) : FileId :=
  match m.files.node? file with
  | some (.descriptor number) =>
    match m.openings[number]? with
    | some { endpoint := .file target, .. } => target
    | _ => file
  | _ => file

/-! ## The host -/

/-- The path of the home directory of the user, which counts if the variable is empty. -/
def superuserHome : Text := "/root".toList

/-- The machine as the host of a shell. -/
def host : Host Machine where
  print text m := { m with output := m.output ++ text.toUTF8.toList }
  printError text m := { m with errors := m.errors ++ text.toUTF8.toList }
  arrivals m := (m.inbox, { m with inbox := [] })
  fork := createChild
  wait := wait
  poll := poll
  terminate pid m := m.send pid.raw.toInt ControlSignal.terminate.number.toNat
  terminateGroup := terminateGroup
  workingDirectory m :=
    match m.files.pathOf? m.directory with
    | some path => .ok path
    | none => .error (.system .noEntry)
  home m := m.home.map fun path => if path = [] then superuserHome else path
  changeDirectory path m :=
    (m.files.findDirectory m.directory path).map fun directory => { m with directory }
  exportDirectories previous current m :=
    (m.exportVariable "OLDPWD" previous).exportVariable "PWD" current
  standardInput := standardInput
  openLines path m :=
    (m.files.openInput m.directory path).map fun file =>
      let opened := m.openLines (m.fileForShell file)
      (fileStream m.opened.length,
        if m.files.node? file = some .pipe then opened.awaitWriter file else opened)
  openLog path m :=
    (m.files.openKeeping m.directory (FileTree.masked Task.usualMode m.mask) path).map
      fun opened => { m with files := opened.2 }

/-! ## Fresh machines -/

/-- The directories that every machine has. -/
def systemDirectories : List Text :=
  ["/bin", "/dev", "/etc", "/home", "/opt", "/proc", "/root", "/tmp", "/usr/bin",
    "/usr/local/bin", "/var"].map String.toList

/-- The devices that every machine has. -/
def devices : List (String × Node) :=
  [("/dev/null", .null), ("/dev/zero", .zero), ("/dev/full", .full), ("/dev/tty", .terminal),
    ("/dev/stdin", .descriptor 0), ("/dev/stdout", .descriptor 1), ("/dev/stderr", .descriptor 2)]

/-- The files that every machine has. -/
def systemFiles : FileTree :=
  let programs := ["/bin", "/usr/bin"].flatMap fun directory => Tool.names.map fun name =>
    (s!"{directory}/{name}", Node.program name.toList)
  let directories := systemDirectories.foldl
    (fun (t : FileTree) path => (t.descend FileTree.root (Path.properNames path)).2) {}
  (devices ++ programs).foldl
    (fun t entry => t.plant (Path.properNames entry.1.toList) entry.2) directories

/-- The standard streams of a shell that no file takes the place of. -/
def standardOpenings : Array Opening :=
  #[{ endpoint := .feed, reads := true }, { endpoint := .output, writes := true },
    { endpoint := .errors, writes := true }]

/-- A machine on which nothing has happened yet, with a shell in a directory. -/
def fresh (pid : UInt32) (directory : Text) : Machine :=
  let (here, files) := systemFiles.descend FileTree.root (Path.properNames directory)
  { files
    openings := standardOpenings
    shellPid := .ofUnsigned pid
    nextPid := pid.toNat + 1
    directory := here
    home := some directory }

/-- The machine with a file as the standard input of the shell; the file has no name. -/
def withInput (m : Machine) (bytes : List UInt8) : Machine :=
  let (file, files) := m.files.add (.file bytes 0o600)
  { m with
    files
    openings := m.openings.setIfInBounds Task.input { endpoint := .file file, reads := true } }

end Conch.Machine
