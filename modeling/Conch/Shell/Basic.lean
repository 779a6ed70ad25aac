import Conch.Process.Job
import Conch.Shell.Host
import Conch.Shell.Interpreter
import Conch.ShellError

/-!
# Shells and what they do

An action of a shell changes the shell and the world under it.  It can stop short: by an
error, which the shell may report and survive, or because the shell itself has ended, which
nothing survives.

The elementary actions are here: printing, taking in signals, and telling the user about
background jobs that have ended.
-/

namespace Conch

/-- How a shell ends: it leaves with an exit code, a signal kills it, it meets a case that it holds
to be impossible, or it waits for ever for something that does not happen. -/
inductive Ending where
  | exited (code : Int)
  | killed (signal : Int)
  | crashed
  | stuck
  deriving DecidableEq, Repr

/-- Why an action stops short: it has failed, or the shell has ended. -/
inductive Stop where
  | failed (error : ShellError)
  | ended (ending : Ending)
  deriving DecidableEq, Repr

/-- A shell in a world: its settings, its process id, the background jobs it keeps track of, what it
remembers between lines, and its control signals. -/
structure Shell (σ : Type) where
  config : Config
  pid : UInt32
  jobs : JobTable
  interpreter : Interpreter := {}
  signals : SignalState
  world : σ

/-- An action of a shell. -/
abbrev Shell.Act (σ α : Type) := EStateM Stop (Shell σ) α

namespace Shell

variable {σ : Type}

/-- A shell that has just been started: it tracks no jobs and handles the control signals. -/
def fresh (config : Config) (pid : UInt32) (signals : SignalState) (world : σ) : Shell σ where
  config
  pid
  jobs := { capacity := config.jobCapacity }
  signals := signals.install .interactive
  world

/-- The shell, for whoever looks into it. -/
def dump (sh : Shell σ) : String :=
  s!"{sh.config.dump}\n{sh.interpreter.dump}\n{sh.jobs.dump}"

variable (H : Host σ)

/-- Fail. -/
def fail {α : Type} (e : ShellError) : Act σ α :=
  throw (.failed e)

/-- End the shell. -/
def finish {α : Type} (ending : Ending) : Act σ α :=
  throw (.ended ending)

/-- Change the world. -/
def affect (f : σ → σ) : Act σ Unit :=
  modify fun sh => { sh with world := f sh.world }

/-- Use a service that answers. -/
def request {α : Type} (f : σ → α × σ) : Act σ α :=
  modifyGet fun sh => ((f sh.world).1, { sh with world := (f sh.world).2 })

/-- Write to standard output. -/
def print (text : String) : Act σ Unit :=
  affect (H.print text)

/-- Write to standard error. -/
def printError (text : String) : Act σ Unit :=
  affect (H.printError text)

/-- The name under which the shell reports errors. -/
def reportName : String := "tinysh"

/-- Report an error on standard error. -/
def report (e : ShellError) : Act σ Unit :=
  printError H s!"{reportName}: {e.message}\n"

/-- Live on with the control signals as they are after something has happened to them, or end with
what killed the shell. -/
def undergo (fate : Fate) : Act σ Unit :=
  match fate with
  | .alive signals => modify fun sh => { sh with signals }
  | .killed signal announced => do
    if announced then
      print H SignalState.terminationNotice
      affect H.terminateGroup
    finish (.killed signal.number)

/-- Change the control signals. -/
def adjust (f : SignalState → Fate) : Act σ Unit := do
  undergo H (f (← get).signals)

/-- The signals that do nothing to a shell: nobody reads what it writes, a child has ended, somebody
resumes or stops the process, it is in the background of its terminal, there is urgent data, the
window has changed. -/
def harmlessSignals : List Int := [13, 17, 18, 19, 21, 22, 23, 28]

/-- Take in one signal by its number. -/
def receive (number : Int) : Act σ Unit :=
  match ControlSignal.ofNumber? number with
  | some signal => adjust H (·.raise signal)
  | none => if number ∈ harmlessSignals then pure () else finish (.killed number)

/-- Take in the signals that have arrived. -/
def takeSignals : Act σ Unit := do
  (← request H.arrivals).forM (receive H)

/-- Change whether background markers are heeded, and say so. -/
def toggleMode : Act σ Unit := do
  let (message, interpreter) := (← get).interpreter.toggle
  modify fun sh => { sh with interpreter }
  print H (message ++ "\n")

/-- Do an action a number of times. -/
def times (action : Act σ Unit) : Nat → Act σ Unit
  | 0 => pure ()
  | n + 1 => do
    action
    times action n

/-- Fold what the handlers have noted into the memory of the shell: each stop signal changes whether
background markers are heeded. -/
def pollSignals : Act σ Unit := do
  let (caught, signals) := (← get).signals.takeCaught
  let (stops, signals) := signals.takeStops
  modify fun sh => { sh with
    signals
    interpreter := { sh.interpreter with
      signalCaught := sh.interpreter.signalCaught || caught } }
  times (toggleMode H) stops

/-- Report each background job that has ended. -/
def notify : Act σ Unit := do
  let sh ← get
  let (ended, jobs, world) := sh.jobs.sweep H.poll sh.world
  set { sh with jobs, world }
  ended.forM fun job => print H (job.text ++ "\n")

/-- End the shell with an exit code, or else with that of the last foreground command.  The
background jobs are told to end first. -/
def leave {α : Type} (code : Option Int) : Act σ α := do
  (← get).jobs.pids.forM fun pid => do
    let _ ← request (H.terminate pid)
  finish (.exited (code.getD (← get).interpreter.status.last.code))

end Shell

end Conch
