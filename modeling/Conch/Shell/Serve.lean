import Conch.Shell.Execute

/-!
# Serving a stream of lines

The shell reads line after line and does something with each, in general executing it.  Before
each line it takes in signals and reports the background jobs that have ended.  An error that
the user can mend is reported and the next line is read; any other error ends the service.
-/

namespace Conch.Shell

variable {σ : Type} (H : Host σ)

/-- The prompt of an interactive shell. -/
def promptText : String := ": "

/-- Do an action, and report an error of the kind that can be mended. -/
def reporting (action : Act σ Unit) : Act σ Unit :=
  tryCatch action fun
    | .failed e => if e.isRecoverable then report H e else fail e
    | .ended ending => finish ending

/-- Read a line from a stream. -/
def readLine (input : InputStream σ) (reader : LineReader) : Act σ (ReadOutcome × LineReader) := do
  let world := (← get).world
  let answers := if reader.takeLine.isSome then [] else input.answers world
  let (outcome, reader, rest) := reader.readLine answers
  affect (input.advance (answers.length - rest.length))
  pure (outcome, reader)

/-- What happens before each line is read. -/
def prepare (prompt : Option String) : Act σ Unit := do
  takeSignals H
  pollSignals H
  modify fun sh => { sh with interpreter := { sh.interpreter with signalCaught := false } }
  notify H
  match prompt with
  | some text => print H text
  | none => pure ()
  takeSignals H

/-- Serve a stream, doing `perform` with each line.  `fuel` bounds the number of attempts to read a
line. -/
def serve (input : InputStream σ) (prompt : Option String) (perform : Text → Act σ Unit) :
    (fuel : Nat) → LineReader → Act σ Unit
  | 0, _ => finish .stuck
  | fuel + 1, reader => do
    prepare H prompt
    let (outcome, reader) ← readLine input reader
    takeSignals H
    match outcome with
    | .failed errno => fail (.system errno)
    | .endOfInput => pollSignals H
    | .interrupted =>
      pollSignals H
      let sh ← get
      if sh.interpreter.signalCaught && sh.config.interactive then
        print H "\n"
      serve input prompt perform fuel reader
    | .line text =>
      pollSignals H
      reporting H (perform text)
      serve input prompt perform fuel reader

/-- Execute the lines of a stream. -/
def executeStream (input : InputStream σ) (prompt : Option String) : Act σ Unit := do
  serve H input prompt (execute H) (input.bound (← get).world + 1) {}

/-- Execute the lines of a file. -/
def executeFile (path : Text) : Act σ Unit := do
  match H.openLines path (← get).world with
  | .error reason => fail (.io reason)
  | .ok (input, world) =>
    modify fun sh => { sh with world }
    executeStream H input none

/-- Execute the lines of standard input. -/
def executeStandardInput : Act σ Unit := do
  executeStream H H.standardInput
    (if (← get).config.interactive then some promptText else none)

end Conch.Shell
