import Conch.Process.Completion

/-!
# The status of the last foreground command

A death by signal is remembered beside the last exit code, which it does not overwrite; the
next exit code clears it.  What counts is `last`: the completion that was recorded last.
-/

namespace Conch

/-- What the shell remembers of the foreground commands it has run: the exit code of the last
command that left with one, and the signal that killed the last command, if one did. -/
structure ExitStatus where
  lastExitCode : Int := 0
  lastSignal : Option Int := none
  deriving DecidableEq, Repr

namespace ExitStatus

/-- Remember one more completion. -/
def record (s : ExitStatus) : Completion → ExitStatus
  | .exited code => { lastExitCode := code, lastSignal := none }
  | .killed signal => { s with lastSignal := some signal }

/-- How the last foreground command ended; a shell that has run none reports success. -/
def last (s : ExitStatus) : Completion :=
  match s.lastSignal with
  | some signal => .killed signal
  | none => .exited s.lastExitCode

@[simp] theorem last_record (s : ExitStatus) (c : Completion) : (s.record c).last = c := by
  cases c <;> rfl

/-- The line that reports the status. -/
def text (s : ExitStatus) : String :=
  s.last.text

/-- The fields of the status, for whoever looks into the shell. -/
def dump (s : ExitStatus) : String :=
  let signal := match s.lastSignal with
    | some signal => s!"Some({signal})"
    | none => "None"
  s!"ExitStatusTracker \x7b last_exit_code: {s.lastExitCode}, " ++
    s!"last_terminating_signal: {signal} \x7d"

end ExitStatus

end Conch
