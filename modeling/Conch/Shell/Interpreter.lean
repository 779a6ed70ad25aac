import Conch.Process.ExitStatus
import Conch.Process.Job

/-!
# Settings and memory of the shell

A shell is configured once, and what it remembers between lines is small: whether background
markers are ignored, how the last foreground command ended, and whether a signal was caught
since the last line was asked for.
-/

namespace Conch

/-- The settings of a shell: whether a prompt is shown before each line, and how many background
jobs may be tracked at once. -/
structure Config where
  interactive : Bool := false
  jobCapacity : Nat := ({} : JobTable).capacity
  deriving DecidableEq, Repr

/-- The settings, for whoever looks into the shell. -/
def Config.dump (c : Config) : String :=
  s!"ShellConfig \x7b interactive: {c.interactive}, job_capacity: {c.jobCapacity} \x7d"

/-- What a shell remembers between lines: whether background markers are ignored, how the last
foreground command ended, and whether a signal was caught since the last line was asked for. -/
structure Interpreter where
  foregroundOnly : Bool := false
  status : ExitStatus := {}
  signalCaught : Bool := false
  deriving DecidableEq, Repr

namespace Interpreter

/-- The line that announces whether background markers are ignored from now on. -/
def modeText (foregroundOnly : Bool) : String :=
  if foregroundOnly then "Entering foreground-only mode (& is now ignored)"
  else "Exiting foreground-only mode"

/-- Change whether background markers are ignored, and announce it. -/
def toggle (i : Interpreter) : String × Interpreter :=
  let foregroundOnly := !i.foregroundOnly
  (modeText foregroundOnly, { i with foregroundOnly })

/-- What is remembered, for whoever looks into the shell. -/
def dump (i : Interpreter) : String :=
  s!"InterpreterState \x7b foreground_only_mode: {i.foregroundOnly}, " ++
    s!"exit_status: {i.status.dump}, " ++
    s!"signal_caught_this_iteration: {i.signalCaught} \x7d"

end Interpreter

end Conch
