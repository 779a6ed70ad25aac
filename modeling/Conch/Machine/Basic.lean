import Conch.Files.Change
import Conch.Process.Children
import Conch.Process.Routine
import Conch.Text.Decimal

/-!
# A machine to run a shell on

A machine holds everything that a shell and its children have to do with: the files, the pipes,
the standard streams, the processes and a clock.  Nothing happens on it by itself; the clock
stands still while anybody can go on.

What is opened once is shared by all descriptors that come from it, in any number of processes,
together with the position up to which it has been read or written.  An end of a pipe is open
as long as any process has a descriptor for it.
-/

namespace Conch

/-- What reaches the standard input of the shell, or the shell itself, from outside: bytes, a signal
while the shell waits for input, or the end of the input. -/
inductive FeedEvent where
  | send (bytes : List UInt8)
  | signal (number : Int)
  | close
  deriving DecidableEq, Repr

/-- The standard input of the shell, if it is no file: the bytes that can be read now, and what
comes after them once the shell waits for it. -/
structure Feed where
  available : List UInt8 := []
  events : List FeedEvent := []
  deriving DecidableEq, Repr

/-- The bytes in a pipe, and how often it was opened for reading and for writing. -/
structure Pipe where
  buffer : List UInt8 := []
  readerOpens : Nat := 0
  writerOpens : Nat := 0
  deriving DecidableEq, Repr

/-- Something that has been opened, with the position up to which it has been read or written and
with what may be done with it.  An opening that `appends` writes behind what is there, and one that
`awaits` goes on when the other end of a pipe has been opened more often than this. -/
structure Opening where
  endpoint : Endpoint
  offset : Nat := 0
  reads : Bool := false
  writes : Bool := false
  appends : Bool := false
  awaits : Option Nat := none
  deriving DecidableEq, Repr

/-- A descriptor of a process: its number, the index of the opening that it refers to, and whether
it is handed on to programs. -/
structure Descriptor where
  number : Nat
  opening : Nat
  inherited : Bool := true
  deriving DecidableEq, Repr

/-- A process other than the shell: who it is and where it comes from, how it takes signals, its
working directory and what it denies to files it creates, its descriptors and children, the signal
that kills it as soon as it would go on, and what it does. -/
structure Process where
  pid : ProcessId
  parent : ProcessId
  reception : Reception
  directory : FileId
  mask : Nat
  descriptors : List Descriptor
  children : Children := {}
  doom : Option Nat := none
  routine : Routine

/-- A machine.  It holds the files and pipes, and all that has been opened, where the first three
openings are the standard streams of the shell; the time in microseconds; the standard input, if
that is no file, and what was written to the other two streams, with `marks` for how much that was
when the shell took up an event.

Of the processes it knows the children of the shell, those of them that were created for the
background and those that have not ended, oldest first.  Of the shell it knows the process id, the
signals on their way to it, those of broken memory that it has survived, its directories, the
variables it hands on, and the files that it reads lines from with how far it has got; a pipe that
it has read to its end is not among them. -/
structure Machine where
  files : FileTree
  mask : Nat := 0
  pipes : List (FileId × Pipe) := []
  openings : Array Opening
  clock : Nat := 0
  feed : Feed := {}
  output : List UInt8 := []
  errors : List UInt8 := []
  marks : List (Nat × Nat) := []
  children : Children := {}
  background : List ProcessId := []
  running : List Process := []
  shellPid : ProcessId
  nextPid : Int
  inbox : List Int := []
  survived : List Int := []
  directory : FileId
  home : Option Text
  environment : List (Text × Text) := []
  opened : List (Option FileId × Nat) := []

namespace Process

/-- What a descriptor refers to. -/
def opening? (p : Process) (number : Nat) : Option Nat :=
  (p.descriptors.find? fun descriptor => descriptor.number == number).map Descriptor.opening

/-- Let go of a descriptor. -/
def close (p : Process) (number : Nat) : Process :=
  { p with descriptors := p.descriptors.filter fun descriptor => descriptor.number != number }

/-- Make a descriptor refer to an opening. -/
def attach (p : Process) (descriptor : Descriptor) : Process :=
  { p with descriptors := (p.close descriptor.number).descriptors ++ [descriptor] }

/-- The least number from a given one on that no descriptor has. -/
def freeNumber (p : Process) (least : Nat) : Nat :=
  let isFree (number : Nat) : Bool := (p.opening? number).isNone
  (((List.range (p.descriptors.length + 1)).map (least + ·)).find? isFree).getD least

/-- Tell a process that a child of it has ended. -/
def tellEnd (p : Process) (child : ProcessId) (cause : Completion) : Process :=
  let p := { p with children := p.children.finish child cause }
  match p.reception.send Reception.child with
  | .survived reception => { p with reception }
  | .fatal _ => p

end Process

namespace Machine

/-! ## Pipes and openings -/

/-- The pipe of a file. -/
def pipe (m : Machine) (file : FileId) : Pipe :=
  (m.pipes.lookup file).getD {}

/-- Change the pipe of a file. -/
def setPipe (m : Machine) (file : FileId) (f : Pipe → Pipe) : Machine :=
  { m with pipes := (file, f (m.pipe file)) :: m.pipes.filter fun entry => entry.1 != file }

/-- Has any process something open that is of a kind? -/
def hasOpen (m : Machine) (kind : Opening → Bool) : Bool :=
  m.running.any fun p => p.descriptors.any fun descriptor =>
    m.openings[descriptor.opening]?.any kind

/-- Has any process, or the shell, an end of a pipe open to read from it? -/
def hasReader (m : Machine) (file : FileId) : Bool :=
  (m.opened.any fun entry => entry.1 == some file) ||
    m.hasOpen fun opening => opening.endpoint == .file file && opening.reads

/-- Has any process an end of a pipe open to write to it? -/
def hasWriter (m : Machine) (file : FileId) : Bool :=
  m.hasOpen fun opening => opening.endpoint == .file file && opening.writes

/-- Let the shell open a file to read lines from. -/
def openLines (m : Machine) (file : FileId) : Machine :=
  let m := { m with opened := m.opened ++ [(some file, 0)] }
  if m.files.node? file = some .pipe then
    m.setPipe file fun pipe => { pipe with readerOpens := pipe.readerOpens + 1 }
  else m

/-- Let the shell close a file that it reads lines from. -/
def closeLines (m : Machine) (index : Nat) : Machine :=
  { m with opened := m.opened.set index (none, 0) }

/-- Note that something has been opened. -/
def addOpening (m : Machine) (opening : Opening) : Nat × Machine :=
  (m.openings.size, { m with openings := m.openings.push opening })

/-- Move the position of something that is open. -/
def moveTo (m : Machine) (index : Nat) (offset : Nat) : Machine :=
  match m.openings[index]? with
  | some opening =>
    { m with openings := m.openings.setIfInBounds index { opening with offset } }
  | none => m

/-- The opening of a pipe that a process opens; what nobody has open any more has lost what was in
it.  Who opens one end only waits for somebody who opens the other one. -/
def openPipe (m : Machine) (file : FileId) (reads writes : Bool) : Opening × Machine :=
  let hasReader := m.hasReader file
  let hasWriter := m.hasWriter file
  let pipe := m.pipe file
  let awaits :=
    if reads && !writes && !hasWriter then some pipe.writerOpens
    else if writes && !reads && !hasReader then some pipe.readerOpens
    else none
  ({ endpoint := .file file, reads, writes, awaits },
    m.setPipe file fun pipe =>
      { buffer := if hasReader || hasWriter then pipe.buffer else []
        readerOpens := pipe.readerOpens + (if reads then 1 else 0)
        writerOpens := pipe.writerOpens + (if writes then 1 else 0) })

/-- Has somebody opened the other end of a pipe since this one was opened? -/
def hasPartner (m : Machine) (opening : Opening) : Bool :=
  match opening.endpoint, opening.awaits with
  | .file file, some seen =>
    let pipe := m.pipe file
    (if opening.reads then pipe.writerOpens else pipe.readerOpens) > seen
  | _, _ => true

/-! ## Processes -/

/-- Change a process that has not ended. -/
def setProcess (m : Machine) (p : Process) : Machine :=
  { m with running := m.running.map fun q => if q.pid = p.pid then p else q }

/-- The process with an id, if it has not ended. -/
def process? (m : Machine) (pid : ProcessId) : Option Process :=
  m.running.find? fun p => p.pid == pid

/-- The child of any process that has ended and has not been collected. -/
def isZombie (m : Machine) (pid : ProcessId) : Bool :=
  let knows (children : Children) : Bool := children.entries.any fun entry =>
    entry.1 == pid && entry.2.isSome
  knows m.children || m.running.any fun p => knows p.children

/-- What the system writes about a process: the state of one that has ended and was not collected is
that of a zombie. -/
def processText? (m : Machine) (pid : ProcessId) : Option Text :=
  if m.isZombie pid then some "State:\tZ (zombie)\n".toList
  else match m.process? pid with
    | some p =>
      some (if p.reception.stopped then "State:\tT (stopped)\n"
        else "State:\tS (sleeping)\n").toList
    | none => if pid = m.shellPid then some "State:\tS (sleeping)\n".toList else none

/-- The text of the file about a process that has a path. -/
def processFile? (m : Machine) (path : Text) : Option Text :=
  match Path.names path with
  | [[], folder, pid, name] =>
    if folder = "proc".toList && (name = "stat".toList || name = "status".toList) then
      (Text.natural? pid).bind fun n => m.processText? ⟨Int32.ofNat n⟩
    else none
  | _ => none

/-- What a process can see. -/
def view (m : Machine) (p : Process) : View where
  files := m.files
  directory := p.directory
  mask := p.mask
  clock := m.clock
  pid := p.pid
  parent := p.parent
  ignored := p.reception.ignored
  endpoints number :=
    (p.opening? number).bind fun index =>
      m.openings[index]?.map fun opening => (opening.endpoint, opening.offset)
  processFile? := m.processFile?

/-- The process that takes care of processes whose parents have ended. -/
def caretaker : ProcessId := ⟨1⟩

/-- Change how a process takes signals, with what comes of it. -/
def undergo (m : Machine) (p : Process) : Impact → Machine
  | .survived reception => m.setProcess { p with reception }
  | .fatal signal => m.setProcess { p with doom := p.doom.or (some signal) }

/-- Let a process end: its parent is told, and its children get another parent. -/
def retire (m : Machine) (p : Process) (cause : Completion) : Machine :=
  let orphaned (q : Process) : Process :=
    if q.parent = p.pid then { q with parent := caretaker } else q
  let told (q : Process) : Process :=
    if q.pid = p.parent then q.tellEnd p.pid cause else q
  { m with
    running := ((m.running.filter fun q => q.pid != p.pid).map orphaned).map told
    children := if p.parent = m.shellPid then m.children.finish p.pid cause else m.children }

/-- Send a signal to a process other than the shell. -/
def sendTo (m : Machine) (p : Process) (signal : Nat) : Machine :=
  m.undergo p (p.reception.send signal)

/-- The signals of broken memory.  The system under the shell looks whether its stack has overflowed
when it gets the first one of a kind; if not, it leaves the next one to do its work. -/
def memorySignals : List Int := [7, 11]

/-- Send a signal to the shell. -/
def sendShell (m : Machine) (signal : Int) : Machine :=
  if signal = 0 then m
  else if memorySignals.contains signal && !m.survived.contains signal then
    { m with survived := signal :: m.survived }
  else { m with inbox := m.inbox ++ [signal] }

/-- Send a signal to the processes of the group, the shell included. -/
def sendAll (m : Machine) (signal : Nat) : Machine :=
  let m := m.sendShell signal
  (m.running.map Process.pid).foldl (fun m pid =>
    match m.process? pid with
    | some p => m.sendTo p signal
    | none => m) m

/-- Send a signal: to a process by its id, or to the whole group. -/
def send (m : Machine) (target : Int) (signal : Nat) : Option Errno × Machine :=
  let pid : ProcessId := ⟨Int32.ofInt target⟩
  if target = 0 || target = -m.shellPid.raw.toInt then (none, m.sendAll signal)
  else if signal > 64 then (some .invalidArgument, m)
  else if pid = m.shellPid then
    (none, m.sendShell signal)
  else
    match m.process? pid with
    | some p => (none, m.sendTo p signal)
    | none => (if m.isZombie pid then none else some .noProcess, m)

end Machine

end Conch
