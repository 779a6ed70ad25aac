import Conch.Files.Walk
import Conch.Process.Completion
import Conch.Process.Reception

/-!
# What a process does

A process does all its work by requests to the system.  A `Routine` is a tree: at each node the
process makes a request, and goes on by the answer.  The tree is finite along every way, so
that a program that runs on and on has to be given a bound.

Routines are put together from tasks.  A `Task α` is a part of a routine that comes to a value
of type `α`, and tasks are done one after the other like actions of any other kind.
-/

namespace Conch

/-- What an open file is: a file of the tree, or one of the standard streams of the shell, where the
input is one that is no file. -/
inductive Endpoint where
  | file (file : FileId)
  | feed
  | output
  | errors
  deriving DecidableEq, Repr

/-- What a file is opened for: to read it, to write it anew, to create it, to write behind what it
holds, or to read and write it.  To create a file it must be missing; whoever writes it creates it
if it is. -/
inductive Access where
  | read
  | write
  | create
  | append
  | update
  deriving DecidableEq, Repr

/-- What a process can see of the system: the files, its working directory, what its mask denies to
files it creates, the time in microseconds, its process id and that of its parent, the signals it
ignores, what its descriptors refer to and at which position, and what the system has written about
a process to the file with a path. -/
structure View where
  files : FileTree
  directory : FileId
  mask : Nat
  clock : Nat
  pid : ProcessId
  parent : ProcessId
  ignored : List Nat
  endpoints : Nat → Option (Endpoint × Nat)
  processFile? : Text → Option Text

/-- How long somebody waits for a child: until one has ended, until one has ended or a signal is
noted down, or not at all. -/
inductive WaitMode where
  | steadily
  | untilNoted
  | briefly
  deriving DecidableEq, Repr

/-- What comes of waiting for a child: one has ended and is collected now, or all of them run, or
there are none, or a signal was noted down. -/
inductive WaitOutcome where
  | ended (pid : ProcessId) (cause : Completion)
  | running
  | none
  | interrupted (signal : Nat)
  deriving DecidableEq, Repr

/-- A request to the system.

A file that `openFile` creates gets the mode, and the answer is a descriptor.  `awaitPartner` waits
until somebody has opened the other end of a pipe and tells whether that has come about before a
signal was noted down; `makePipe` answers with the end to read from and the other one.  `duplicate`
makes a descriptor refer to the same as another one, or a high one that programs do not inherit, if
none is named.  `read` brings no byte at the end, and a signal that is noted down breaks off the
wait for them; `giveBack` tells whether bytes can be given back that were read.  `become` has an
answer only if it fails, and `takeNoted` tells which signals have been noted down since this was
last asked. -/
inductive Request where
  | look
  | change (alter : View → Except IoError FileTree)
  | enter (directory : FileId)
  | setMask (mask : Nat)
  | openFile (path : Text) (access : Access) (mode : Nat)
  | awaitPartner (descriptor : Nat)
  | makePipe
  | duplicate (descriptor : Nat) (target : Option Nat)
  | close (descriptor : Nat)
  | read (descriptor limit : Nat)
  | write (descriptor : Nat) (bytes : List UInt8)
  | giveBack (descriptor count : Nat)
  | sleepUntil (time : Nat)
  | become (path : Text) (words : List Text) (environment : List (Text × Text))
  | wait (pid : Option ProcessId) (mode : WaitMode)
  | kill (target : Int) (signal : Nat)
  | setAction (signal : Nat) (action : SignalAction)
  | unblock
  | takeNoted

/-- What the answer to a request is. -/
def Request.Answer : Request → Type
  | look => View
  | change _ => Except IoError Unit
  | enter _ => Unit
  | setMask _ => Unit
  | openFile _ _ _ => Except IoError Nat
  | awaitPartner _ => Bool
  | makePipe => Nat × Nat
  | duplicate _ _ => Except Errno Nat
  | close _ => Unit
  | read _ _ => Except Errno (List UInt8)
  | write _ _ => Except Errno Unit
  | giveBack _ _ => Bool
  | sleepUntil _ => Unit
  | become _ _ _ => Errno
  | wait _ _ => WaitOutcome
  | kill _ _ => Option Errno
  | setAction _ _ => Unit
  | unblock => Unit
  | takeNoted => List Nat

/-- What a process does: it leaves with an exit code, or it makes a request and goes on by the
answer, or it creates a child and goes on by its process id. -/
inductive Routine where
  | done (code : Nat)
  | ask (request : Request) (next : request.Answer → Routine)
  | fork (child : Routine) (next : ProcessId → Routine)

/-- A part of a routine. -/
def Task (α : Type) : Type :=
  (α → Routine) → Routine

namespace Task

instance : Monad Task where
  pure a := fun next => next a
  bind task f := fun next => task fun a => f a next

/-- Make a request. -/
def ask (request : Request) : Task request.Answer :=
  fun next => .ask request next

/-- Create a child. -/
def fork (child : Routine) : Task ProcessId :=
  fun next => .fork child next

/-- A task as a routine; the value it comes to is the exit code. -/
def routine (task : Task Nat) : Routine :=
  task fun code => .done code

/-- See what there is. -/
def look : Task View :=
  ask .look

/-- What may be done with a file that is created, if nothing is said about it. -/
def usualMode : Nat := 0o666

/-- Open a file, and wait for a partner if it is a pipe. -/
def openFile (path : Text) (access : Access) (mode : Nat) : Task (Except IoError Nat) := do
  match ← ask (.openFile path access mode) with
  | .error reason => pure (.error reason)
  | .ok descriptor =>
    let came : Bool ← ask (.awaitPartner descriptor)
    if came then pure (.ok descriptor)
    else
      ask (.close descriptor)
      pure (.error (.system .interrupted))

/-- Change the files. -/
def change (alter : View → Except IoError FileTree) : Task (Except IoError Unit) :=
  ask (.change alter)

/-- Write to a descriptor, whatever comes of it. -/
def write (descriptor : Nat) (text : Text) : Task Unit := do
  if text != [] then
    let _ ← ask (.write descriptor (Utf8.encode text))
  pure ()

/-- The descriptor of standard input. -/
def input : Nat := 0

/-- The descriptor of standard output. -/
def output : Nat := 1

/-- The descriptor of standard error. -/
def errors : Nat := 2

/-- Nobody does anything more often than this. -/
def patience : Nat := 1000000

end Task

namespace View

/-- Where a path leads, the files about processes included. -/
def find (view : View) (path : Text) : Except IoError Node :=
  match view.processFile? path with
  | some text => .ok (.file (Utf8.encode text) 0o444)
  | none =>
    match view.files.find view.directory path with
    | .error reason => .error reason
    | .ok file => (view.files.node? file).elim (.error (.system .noEntry)) .ok

end View

end Conch
