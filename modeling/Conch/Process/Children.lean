import Conch.Process.Completion

/-!
# The children of a process, as the system keeps them

A child runs, then it has ended and its completion is kept until somebody asks for it; by
being told, the asker collects the child, and from then on the system knows it no more.  The
answer about a child killed by a real-time signal cannot be put into words: the asker gets an
error, but the child is collected all the same.
-/

namespace Conch

/-- The least number of a real-time signal. -/
def firstRealTimeSignal : Int := 34

/-- What the asker is told about a child that has ended. -/
def Completion.answer (pid : ProcessId) : Completion → WaitAnswer
  | .exited code => .exited pid code
  | .killed signal =>
    if signal < firstRealTimeSignal then .killed pid signal false
    else .failed .invalidArgument

/-- What is answered about a process that is no child, or no longer one.  The least number of all
cannot be negated and so names no process at all. -/
def strangerAnswer (pid : ProcessId) : WaitAnswer :=
  if pid.raw = Int32.minValue then .failed .noProcess else .failed .noChild

/-- The children of a process that have not been collected, in order of creation: each runs, or has
ended with a completion. -/
structure Children where
  entries : List (ProcessId × Option Completion) := []
  deriving DecidableEq, Repr

namespace Children

/-- Has the process been created and not yet been collected? -/
def isChild (cs : Children) (pid : ProcessId) : Bool :=
  cs.entries.any fun entry => entry.1 == pid

/-- The state of a child: running, or ended with a completion. -/
def status? (cs : Children) (pid : ProcessId) : Option (Option Completion) :=
  cs.entries.lookup pid

/-- Create a child that runs. -/
def spawn (cs : Children) (pid : ProcessId) : Children :=
  ⟨cs.entries ++ [(pid, none)]⟩

/-- Let a running child end. -/
def finish (cs : Children) (pid : ProcessId) (cause : Completion) : Children :=
  ⟨cs.entries.map fun entry =>
    if entry.1 = pid && entry.2.isNone then (pid, some cause) else entry⟩

/-- Forget a child. -/
def collect (cs : Children) (pid : ProcessId) : Children :=
  ⟨cs.entries.filter fun entry => entry.1 != pid⟩

/-- Ask about a process without waiting for it. -/
def poll (pid : ProcessId) (cs : Children) : WaitAnswer × Children :=
  match cs.status? pid with
  | some (some cause) => (cause.answer pid, cs.collect pid)
  | some none => (.stillAlive, cs)
  | none => (strangerAnswer pid, cs)

end Children

end Conch
