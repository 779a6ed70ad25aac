import Conch.Machine.Basic
import Conch.Tool.Catalogue

/-!
# Answers to requests

What a process asks for is done at once, or the process has to wait, and then it asks again
later.  A process that is killed dies when it would go on, be it by a signal that it has sent to
itself.

Whoever creates a file may read and write it, whatever its mode says to later comers.
-/

namespace Conch

namespace Access

/-- Is something read? -/
def reads : Access → Bool
  | read | update => true
  | write | create | append => false

/-- Is something written? -/
def writes : Access → Bool
  | read => false
  | write | create | append | update => true

end Access

namespace Machine

/-- Signal the end of a wait if a signal has been noted down. -/
def unlessNoted {α : Type} (p : Process) (answer : α) : Option α :=
  if p.reception.noted = [] then none else some answer

/-! ## Opening -/

/-- What a file is for a process that opens it: a file that stands for a descriptor is what that
refers to. -/
def endpointOf? (m : Machine) (p : Process) (file : FileId) : Option Endpoint :=
  match m.files.node? file with
  | some (.descriptor number) => ((m.view p).endpoints number).map Prod.fst
  | _ => some (.file file)

/-- Find the file at a path, or create it. -/
def locate (m : Machine) (p : Process) (path : Text) (access : Access) (mode : Nat) :
    Except IoError (FileId × FileTree) :=
  let created := m.files.openKeeping p.directory (FileTree.masked mode p.mask) path
  match access with
  | .read =>
    match m.processFile? path with
    | some text => .ok (m.files.add (.file (Utf8.encode text) 0o444))
    | none => (m.files.openInput p.directory path).map fun file => (file, m.files)
  | .create =>
    match m.files.findFor .entry p.directory path with
    | .ok _ => .error (.system .alreadyExists)
    | .error _ => created
  | .update => do
    let (file, files) ← created
    if files.permits file .reading || (m.files.node? file).isNone then .ok (file, files)
    else .error (.system .accessDenied)
  | .write | .append => created

/-- Open a file; the answer is a descriptor. -/
def openFile (m : Machine) (p : Process) (path : Text) (access : Access) (mode : Nat) :
    Except IoError Nat × Machine :=
  match m.locate p path access mode with
  | .error e => (.error e, m)
  | .ok (file, files) =>
    let m := { m with files }
    match m.endpointOf? p file with
    | none => (.error (.system .noEntry), m)
    | some endpoint =>
      let (opening, m) : Opening × Machine := match endpoint with
        | .file file =>
          if m.files.node? file = some .pipe then m.openPipe file access.reads access.writes
          else
            ({ endpoint, reads := access.reads, writes := access.writes,
               appends := access = .append },
              if access = .write then { m with files := m.files.truncate file } else m)
        | _ => ({ endpoint, reads := access.reads, writes := access.writes }, m)
      let (index, m) := m.addOpening opening
      let number := p.freeNumber 0
      (.ok number, m.setProcess (p.attach { number, opening := index }))

/-- Create a pipe without a name; the answer is a descriptor for each end. -/
def makePipe (m : Machine) (p : Process) : (Nat × Nat) × Machine :=
  let (file, files) := m.files.add .pipe
  let m := { m with files }
  let (source, m) := m.addOpening { endpoint := .file file, reads := true }
  let (sink, m) := m.addOpening { endpoint := .file file, writes := true }
  let reading := p.freeNumber 0
  let p := p.attach { number := reading, opening := source }
  let writing := p.freeNumber 0
  ((reading, writing), m.setProcess (p.attach { number := writing, opening := sink }))

/-- The least number of a descriptor that is kept out of the way. -/
def leastHighNumber : Nat := 10

/-- Make a descriptor refer to the same as another one. -/
def duplicate (m : Machine) (p : Process) (descriptor : Nat) (target : Option Nat) :
    Except Errno Nat × Machine :=
  match p.opening? descriptor with
  | none => (.error .badDescriptor, m)
  | some opening =>
    let number := target.getD (p.freeNumber leastHighNumber)
    (.ok number, m.setProcess (p.attach { number, opening, inherited := target.isSome }))

/-! ## Reading and writing -/

/-- The opening of a descriptor, if it is good for a purpose. -/
def usable? (m : Machine) (p : Process) (descriptor : Nat) (isGood : Opening → Bool) :
    Option (Nat × Opening) :=
  (p.opening? descriptor).bind fun index =>
    (m.openings[index]?.filter isGood).map fun opening => (index, opening)

/-- Read from a pipe; nobody has to wait for bytes that nobody can write. -/
def readPipe (m : Machine) (p : Process) (file : FileId) (limit : Nat) :
    Option (Except Errno (List UInt8) × Machine) :=
  let bytes := (m.pipe file).buffer.take limit
  if bytes = [] then
    if m.hasWriter file then unlessNoted p (.error .interrupted, m) else some (.ok [], m)
  else
    some (.ok bytes, m.setPipe file fun pipe =>
      { pipe with buffer := pipe.buffer.drop bytes.length })

/-- Read from what is no file. -/
def readFeed (m : Machine) (p : Process) (limit : Nat) :
    Option (Except Errno (List UInt8) × Machine) :=
  let bytes := m.feed.available.take limit
  if bytes = [] && m.feed.events != [] then unlessNoted p (.error .interrupted, m)
  else some (.ok bytes, { m with feed.available := m.feed.available.drop bytes.length })

/-- Read bytes. -/
def readBytes (m : Machine) (p : Process) (descriptor limit : Nat) :
    Option (Except Errno (List UInt8) × Machine) :=
  match m.usable? p descriptor Opening.reads with
  | none => some (.error .badDescriptor, m)
  | some (index, opening) =>
    match opening.endpoint with
    | .feed => m.readFeed p limit
    | .output | .errors => some (.error .badDescriptor, m)
    | .file file =>
      match m.files.node? file with
      | some (.directory ..) => some (.error .isDirectory, m)
      | some .pipe => m.readPipe p file limit
      | some .zero | some .full => some (.ok (List.replicate limit 0), m)
      | _ =>
        let bytes := ((m.files.contents file).drop opening.offset).take limit
        some (.ok bytes, m.moveTo index (opening.offset + bytes.length))

/-- How much a pipe holds before somebody who writes to it has to wait. -/
def pipeCapacity : Nat := 65536

/-- Write to a pipe.  Nobody may write what nobody can read. -/
def writePipe (m : Machine) (p : Process) (file : FileId) (bytes : List UInt8) :
    Option (Except Errno Unit × Machine) :=
  if !m.hasReader file then some (.error .brokenPipe, m.sendTo p Reception.brokenPipe)
  else if (m.pipe file).buffer.length ≥ pipeCapacity then
    unlessNoted p (.error .interrupted, m)
  else
    some (.ok (), m.setPipe file fun pipe => { pipe with buffer := pipe.buffer ++ bytes })

/-- Write bytes. -/
def writeBytes (m : Machine) (p : Process) (descriptor : Nat) (bytes : List UInt8) :
    Option (Except Errno Unit × Machine) :=
  match m.usable? p descriptor Opening.writes with
  | none => some (.error .badDescriptor, m)
  | some (index, opening) =>
    match opening.endpoint with
    | .feed => some (.error .badDescriptor, m)
    | .output => some (.ok (), { m with output := m.output ++ bytes })
    | .errors => some (.ok (), { m with errors := m.errors ++ bytes })
    | .file file =>
      match m.files.node? file with
      | some .pipe => m.writePipe p file bytes
      | some .full => some (.error .noSpace, m)
      | _ =>
        let offset := if opening.appends then (m.files.contents file).length else opening.offset
        some (.ok (), { m with files := m.files.write file offset bytes }.moveTo index
          (offset + bytes.length))

/-- Give bytes back that were read from a file. -/
def giveBack (m : Machine) (p : Process) (descriptor count : Nat) : Bool × Machine :=
  match m.usable? p descriptor Opening.reads with
  | some (index, { endpoint := .file file, offset, .. }) =>
    if (m.files.node? file).any Node.isRegular then (true, m.moveTo index (offset - count))
    else (false, m)
  | _ => (false, m)

/-! ## Children and signals -/

/-- The first child that has ended and is asked for. -/
def endedChild? (p : Process) (pid : Option ProcessId) : Option (ProcessId × Completion) :=
  p.children.entries.findSome? fun entry =>
    if pid.all (· = entry.1) then entry.2.map fun cause => (entry.1, cause) else none

/-- Wait for a child. -/
def waitForChild (m : Machine) (p : Process) (pid : Option ProcessId) (mode : WaitMode) :
    Option (WaitOutcome × Machine) :=
  match endedChild? p pid with
  | some (child, cause) =>
    some (.ended child cause, m.setProcess { p with children := p.children.collect child })
  | none =>
    if !p.children.entries.any fun entry => pid.all (· = entry.1) then some (.none, m)
    else match mode with
      | .briefly => some (.running, m)
      | .steadily => none
      | .untilNoted => p.reception.noted.getLast?.map fun signal => (.interrupted signal, m)

/-! ## All requests -/

/-- Answer a request, if the process need not wait.  Nothing becomes of a request for a program
here, because it would have an answer only if it fails. -/
def answer (m : Machine) (p : Process) :
    (request : Request) → Option (request.Answer × Machine)
  | .look => some (m.view p, m)
  | .change alter =>
    match alter (m.view p) with
    | .ok files => some (.ok (), { m with files })
    | .error e => some (.error e, m)
  | .enter directory => some ((), m.setProcess { p with directory })
  | .setMask mask => some ((), m.setProcess { p with mask })
  | .openFile path access mode => some (m.openFile p path access mode)
  | .awaitPartner descriptor =>
    match m.usable? p descriptor fun _ => true with
    | none => some (true, m)
    | some (_, opening) =>
      if m.hasPartner opening then some (true, m) else unlessNoted p (false, m)
  | .makePipe => some (m.makePipe p)
  | .duplicate descriptor target => some (m.duplicate p descriptor target)
  | .close descriptor => some ((), m.setProcess (p.close descriptor))
  | .read descriptor limit => m.readBytes p descriptor limit
  | .write descriptor bytes => m.writeBytes p descriptor bytes
  | .giveBack descriptor count => some (m.giveBack p descriptor count)
  | .sleepUntil time => if m.clock < time then none else some ((), m)
  | .become .. => none
  | .wait pid mode => m.waitForChild p pid mode
  | .kill target signal => some (m.send target signal)
  | .setAction signal action =>
    some ((), m.setProcess { p with reception := p.reception.setAction signal action })
  | .unblock => some ((), m.undergo p p.reception.unblock)
  | .takeNoted =>
    some (p.reception.noted, m.setProcess { p with reception := { p.reception with noted := [] } })

/-- Let a process go on with a routine. -/
def resume (m : Machine) (pid : ProcessId) (routine : Routine) : Machine :=
  { m with running := m.running.map fun q => if q.pid = pid then { q with routine } else q }

/-- Create a process like another one. -/
def fork (m : Machine) (p : Process) (routine : Routine) : ProcessId × Machine :=
  let pid : ProcessId := ⟨Int32.ofInt m.nextPid⟩
  let child : Process :=
    { p with pid, parent := p.pid, reception := p.reception.inherited, children := {}, routine }
  let m := m.setProcess { p with children := p.children.spawn pid }
  (pid, { m with running := m.running ++ [child], nextPid := m.nextPid + 1 })

/-- Let a process become a program. -/
def become (m : Machine) (p : Process) (execution : Execution) (environment : List (Text × Text)) :
    Machine :=
  m.setProcess { p with
    reception := p.reception.forProgram
    descriptors := p.descriptors.filter Descriptor.inherited
    routine := Tool.routineOf execution environment }

/-- Let a process go on, if it need not wait. -/
def step (m : Machine) (p : Process) : Option Machine :=
  match p.doom, p.reception.stopped, p.routine with
  | some signal, _, _ => some (m.retire p (.killed signal))
  | none, true, _ => none
  | none, false, .done code => some (m.retire p (.exited (code % 256)))
  | none, false, .fork child next =>
    let (pid, m) := m.fork p child
    some (m.resume p.pid (next pid))
  | none, false, .ask (.become path words environment) next =>
    match m.files.execution p.directory path words with
    | .ok execution => some (m.become p execution environment)
    | .error errno => some (m.resume p.pid (next errno))
  | none, false, .ask request next =>
    (m.answer p request).map fun (answer, m) => m.resume p.pid (next answer)

end Machine

end Conch
