import Conch.Machine.Request
import Conch.Shell.Basic

/-!
# Who goes on

Time passes in rounds.  In a round every process goes on for a slice of steps, or until it has to
wait; the one that is waited for goes first, and the others follow by age.  The clock moves by the
time that the steps take, and if nobody could go on, to the first time that somebody waits for.

Nothing goes on after a signal that kills the shell.
-/

namespace Conch.Machine

/-- How many steps a process may take in a round. -/
def slice : Nat := 64

/-- How long a step takes, in microseconds. -/
def stepTime : Nat := 20

/-- Has the shell been sent a signal that kills it? -/
def isDoomed (m : Machine) : Bool :=
  m.inbox.any fun signal =>
    (ControlSignal.ofNumber? signal).isNone && !Shell.harmlessSignals.contains signal

/-- Let a process take at most so many steps, as long as a goal is not reached; the result says how
many it took. -/
def advance (goal : Machine → Bool) (pid : ProcessId) : (steps : Nat) → Machine → Nat × Machine
  | 0, m => (0, m)
  | steps + 1, m =>
    if goal m then (0, m)
    else match (m.process? pid).bind m.step with
      | none => (0, m)
      | some m =>
        let (taken, m) := advance goal pid steps m
        (taken + 1, m)

/-- Let every process take its slice; the result says how many steps the busiest one took. -/
def goRound (goal : Machine → Bool) (preferred : ProcessId) (m : Machine) : Nat × Machine :=
  let others := (m.running.map Process.pid).filter (· != preferred)
  (preferred :: others).foldl (fun (most, m) pid =>
    let (taken, m) := advance goal pid slice m
    (max most taken, m)) (0, m)

/-- The time a process waits for. -/
def wakeTime? (p : Process) : Option Nat :=
  match p.routine with
  | .ask (.sleepUntil time) _ => if p.reception.stopped then none else some time
  | _ => none

/-- Move the clock to the first time that somebody waits for. -/
def tick (m : Machine) : Option Machine :=
  ((m.running.filterMap wakeTime?).min?).map fun time => { m with clock := max m.clock time }

/-- Let things happen until a goal is reached, or nothing can happen any more; `sleeps` says whether
the clock may move while nobody can go on. -/
def runUntil (goal : Machine → Bool) (sleeps : Bool) (preferred : ProcessId) :
    (fuel : Nat) → Machine → Machine
  | 0, m => m
  | fuel + 1, m =>
    if goal m || m.isDoomed then m
    else
      match m.goRound (fun m => goal m || m.isDoomed) preferred with
      | (0, m) =>
        if goal m || !sleeps then m
        else match m.tick with
          | some m => runUntil goal sleeps preferred fuel m
          | none => m
      | (most, m) =>
        runUntil goal sleeps preferred fuel { m with clock := m.clock + most * stepTime }

/-- Nobody waits for more rounds than this. -/
def patience : Nat := 1000000

/-- Nobody who does not wait for anything watches more rounds than this. -/
def settlingTime : Nat := 1000

/-- Has a child of the shell ended? -/
def hasEnded (pid : ProcessId) (m : Machine) : Bool :=
  match m.children.status? pid with
  | some none => false
  | _ => true

/-- Wait until a child of the shell has ended. -/
def awaitEnd (m : Machine) (pid : ProcessId) : Machine :=
  m.runUntil (hasEnded pid) true pid patience

/-- Let everybody go on who can do so without the clock. -/
def settle (m : Machine) : Machine :=
  m.runUntil (fun _ => false) false ⟨0⟩ settlingTime

/-- Let everybody go on until something can be read from a pipe, or nobody can write to it any
more. -/
def awaitPipe (m : Machine) (file : FileId) : Machine :=
  m.runUntil (fun m => (m.pipe file).buffer != [] || !m.hasWriter file) true ⟨0⟩ patience

/-- Let everybody go on until somebody has a pipe open to write to it. -/
def awaitWriter (m : Machine) (file : FileId) : Machine :=
  let seen := (m.pipe file).writerOpens
  m.runUntil (fun m => m.hasWriter file || (m.pipe file).writerOpens > seen) true ⟨0⟩ patience

/-- Open a pipe for writing as soon as somebody has it open for reading, and close it again. -/
def releasePipe (m : Machine) (here : FileId) (path : Text) : Machine :=
  match m.files.find here path with
  | .ok file =>
    let m := m.runUntil (fun m => m.hasReader file) true ⟨0⟩ patience
    m.setPipe file fun pipe => { pipe with writerOpens := pipe.writerOpens + 1 }
  | .error _ => m

end Conch.Machine
