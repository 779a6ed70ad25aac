import Conch.Errno

/-!
# How a child process ends, and how the shell hears of it

A child ends with an exit code or is killed by a signal.  Asking the system about a child
gives a `WaitAnswer`; only two of its forms say that the child has ended.
-/

namespace Conch

/-- The number by which the system knows a process. -/
structure ProcessId where
  raw : Int32
  deriving DecidableEq, Repr

namespace ProcessId

/-- An unsigned number as a process id; numbers from `2 ^ 31` on wrap round. -/
def ofUnsigned (n : UInt32) : ProcessId :=
  ⟨n.toInt32⟩

/-- The process id in decimal digits. -/
def text (pid : ProcessId) : String :=
  toString pid.raw.toInt

end ProcessId

/-- How a process ended: it left with an exit code, or it was killed by a signal. -/
inductive Completion where
  | exited (code : Int)
  | killed (signal : Int)
  deriving DecidableEq, Repr

namespace Completion

/-- The status code a shell gives to death by a signal. -/
def codeOfSignal (signal : Int) : Int :=
  128 + signal

/-- The status code: the exit code, or `128` and the number of the signal. -/
def code : Completion → Int
  | exited code => code
  | killed signal => codeOfSignal signal

/-- The completion in words. -/
def text : Completion → String
  | exited code => s!"exit value {code}"
  | killed signal => s!"terminated by signal {signal}"

end Completion

/-- What the system answers when it is asked about a child.  A child that has exited or was killed
is collected by that; the other answers say that it was stopped, that it goes on after a stop, that
it has not ended, or that there is no answer but an error. -/
inductive WaitAnswer where
  | exited (pid : ProcessId) (code : Int)
  | killed (pid : ProcessId) (signal : Int) (coreDumped : Bool)
  | stopped (pid : ProcessId) (signal : Int)
  | continued (pid : ProcessId)
  | stillAlive
  | failed (errno : Errno)
  deriving DecidableEq, Repr

/-- The child that an answer declares ended, and how it ended. -/
def WaitAnswer.completion? : WaitAnswer → Option (ProcessId × Completion)
  | .exited pid code => some (pid, .exited code)
  | .killed pid signal _ => some (pid, .killed signal)
  | .stopped .. | .continued _ | .stillAlive | .failed _ => none

end Conch
