import Conch.Shell.Basic

/-!
# Running a program

A program runs in a new process.  The child is created between two changes of the signal
handlers, with the control signals blocked, so that a signal finds either the handlers of the
shell or those of the child.  A foreground process is waited for with the control signals
blocked; a background process is announced and tracked.
-/

namespace Conch.Shell

variable {σ : Type} (H : Host σ)

/-- The first word that cannot be handed to a program, because it holds a NUL character. -/
def unfitWord? (words : List Word) : Option Word :=
  words.find? fun word => word.contains '\x00'

/-- What a series of answers about a child comes to: answers that do not say how it ended are passed
over, as is an interruption. -/
def conclusion? : List WaitAnswer → Option (Except Errno Completion)
  | [] => none
  | answer :: answers =>
    match answer.completion? with
    | some (_, cause) => some (.ok cause)
    | none =>
      match answer with
      | .failed errno => if errno = .interrupted then conclusion? answers else some (.error errno)
      | _ => conclusion? answers

/-- Do an action with the control signals blocked, and put the mask back that was there. -/
def guarded {α : Type} (action : Act σ α) : Act σ α := do
  let mask := (← get).signals.blocked
  modify fun sh => { sh with signals := sh.signals.block }
  takeSignals H
  let a ← action
  takeSignals H
  adjust H (·.setBlocked mask)
  pure a

/-- Create the process of a command. -/
def create (command : Command) : Act σ (Option ProcessId) :=
  guarded H do
    modify fun sh => { sh with signals := sh.signals.install (.child command.background) }
    takeSignals H
    let pid ← request (H.fork { command, signals := (← get).signals })
    takeSignals H
    modify fun sh => { sh with signals := sh.signals.install .interactive }
    pure pid

/-- Wait until a foreground process has ended, and remember how. -/
def waitFor (pid : ProcessId) : Act σ Unit := do
  match conclusion? (← guarded H (request (H.wait pid))) with
  | none => finish .stuck
  | some (.error errno) => fail (.system errno)
  | some (.ok cause) =>
    modify fun sh => { sh with
      interpreter := { sh.interpreter with status := sh.interpreter.status.record cause } }
    match cause with
    | .killed _ => print H (cause.text ++ "\n")
    | .exited _ => pure ()

/-- Announce a background process and keep track of it. -/
def track (pid : ProcessId) : Act σ Unit := do
  print H (Job.begunText pid ++ "\n")
  match (← get).jobs.register? pid with
  | some jobs => modify fun sh => { sh with jobs }
  | none => fail (.jobLimit (← get).jobs.capacity)

/-- Run a program.  What can be refused is refused before anything is done. -/
def launch (command : Command) : Act σ Unit := do
  let jobs := (← get).jobs
  if command.background && !jobs.hasCapacity then
    fail (.jobLimit jobs.capacity)
  match unfitWord? command.argv with
  | some word => fail (.malformed (.nulInWord word))
  | none =>
    match ← create H command with
    | none => fail .forkFailed
    | some pid =>
      if command.background then track H pid else waitFor H pid
      notify H

end Conch.Shell
