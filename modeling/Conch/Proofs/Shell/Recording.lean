import Conch.Proofs.Shell.Simulation

/-!
# Recording what a shell does

What a shell does on a host can be watched without disturbing it: the recorded host notes each
use of a service in a log and otherwise does what the host does.  Lines that are handed on to be
executed are noted as well.

That nobody is disturbed is the theorem `serve_recorded`: a run on the recorded host, with the log
forgotten, is the run on the host.  The recorded host is like the host up to the log, so actions on
the one simulate those on the other; an action `Mirrors` another one if they come to the same result
and leave the same shell but for the log.
-/

namespace Conch

/-- What is noted of a shell.

It wrote to one of its streams, took in signals, asked for a process and perhaps got one, waited for
a child or asked about one and was given these answers, told a process or its process group to end,
went to another directory, told its children from which directory it came and to which one it went,
or opened a file.  It turned to a stream that would have given these answers (`read`), or it handed
on a line to be executed, with background markers heeded or not, when so many stop signals had been
handled in all. -/
inductive Event where
  | printed (text : String)
  | complained (text : String)
  | heard (numbers : List Int)
  | created (launch : Launch) (pid : Option ProcessId)
  | waited (pid : ProcessId) (answers : List WaitAnswer)
  | asked (pid : ProcessId) (answer : WaitAnswer)
  | dismissed (pid : ProcessId)
  | dismissedGroup
  | moved (path : Text)
  | exported (previous current : Text)
  | opened (path : Text)
  | read (offered : List ReadAnswer)
  | handed (line : Text) (heeded : Bool) (stops : Nat)
  deriving DecidableEq

/-- A world with a log of what a shell did to it, oldest event first. -/
structure Recorded (σ : Type) where
  world : σ
  log : List Event := []

namespace Recorded

variable {σ : Type}

/-- Another world, and one more event. -/
def note (r : Recorded σ) (event : Event) (world : σ) : Recorded σ :=
  { world, log := r.log ++ [event] }

@[simp] theorem log_note (r : Recorded σ) (event : Event) (world : σ) :
    (r.note event world).log = r.log ++ [event] := rfl

/-- What is read off a log after one more event. -/
theorem filterMap_log_note {α : Type} (f : Event → Option α) (r : Recorded σ) (event : Event)
    (world : σ) : (r.note event world).log.filterMap f = r.log.filterMap f ++ (f event).toList := by
  rw [log_note, List.filterMap_append]
  cases hevent : f event <;> simp [hevent]

end Recorded

variable {σ : Type}

/-- A stream whose use is noted. -/
def InputStream.recorded (input : InputStream σ) : InputStream (Recorded σ) where
  answers r := input.answers r.world
  advance n r := r.note (.read (input.answers r.world)) (input.advance n r.world)
  bound r := input.bound r.world

/-- The host whose use is noted. -/
def Host.recorded (H : Host σ) : Host (Recorded σ) where
  print text r := r.note (.printed text) (H.print text r.world)
  printError text r := r.note (.complained text) (H.printError text r.world)
  arrivals r :=
    let (numbers, world) := H.arrivals r.world
    (numbers, r.note (.heard numbers) world)
  fork launch r :=
    let (pid, world) := H.fork launch r.world
    (pid, r.note (.created launch pid) world)
  wait pid r :=
    let (answers, world) := H.wait pid r.world
    (answers, r.note (.waited pid answers) world)
  poll pid r :=
    let (answer, world) := H.poll pid r.world
    (answer, r.note (.asked pid answer) world)
  terminate pid r :=
    let (errno, world) := H.terminate pid r.world
    (errno, r.note (.dismissed pid) world)
  terminateGroup r := r.note .dismissedGroup (H.terminateGroup r.world)
  workingDirectory r := H.workingDirectory r.world
  home r := H.home r.world
  changeDirectory path r := (H.changeDirectory path r.world).map (r.note (.moved path))
  exportDirectories previous current r :=
    r.note (.exported previous current) (H.exportDirectories previous current r.world)
  standardInput := H.standardInput.recorded
  openLines path r := (H.openLines path r.world).map fun (input, world) =>
    (input.recorded, r.note (.opened path) world)
  openLog path r := (H.openLog path r.world).map (r.note (.opened path))

/-- To open a file on the recorded host is to open it on the host, and to note that. -/
theorem openLines_recorded (H : Host σ) (path : Word) (r : Recorded σ) :
    H.recorded.openLines path r = (H.openLines path r.world).map fun opened =>
      (opened.1.recorded, r.note (.opened path) opened.2) :=
  rfl

/-- Is this the world that is recorded? -/
def Recorded.Of (r : Recorded σ) (world : σ) : Prop :=
  r.world = world

/-- A recorded stream answers as the stream does, and reading it does the same to the world. -/
theorem InputStream.alike_recorded (input : InputStream σ) :
    input.recorded.Alike Recorded.Of input where
  answers := by
    rintro r _ rfl
    rfl
  advance := by
    rintro n r _ rfl
    rfl

/-- **The recorded host serves as the host does**, and does the same to the world. -/
theorem Host.alike_recorded (H : Host σ) : H.recorded.Alike Recorded.Of H where
  print := by
    rintro text r _ rfl
    rfl
  printError := by
    rintro text r _ rfl
    rfl
  arrivals := by
    rintro r _ rfl
    exact ⟨rfl, rfl⟩
  fork := by
    rintro launch r _ rfl
    exact ⟨rfl, rfl⟩
  wait := by
    rintro pid r _ rfl
    exact ⟨rfl, rfl⟩
  poll := by
    rintro pid r _ rfl
    exact ⟨rfl, rfl⟩
  terminate := by
    rintro pid r _ rfl
    exact ⟨rfl, rfl⟩
  terminateGroup := by
    rintro r _ rfl
    rfl
  workingDirectory := by
    rintro r _ rfl
    rfl
  home := by
    rintro r _ rfl
    rfl
  changeDirectory := by
    rintro path r _ rfl
    have hrecorded : H.recorded.changeDirectory path r =
        (H.changeDirectory path r.world).map (r.note (.moved path)) := rfl
    rw [hrecorded]
    cases H.changeDirectory path r.world with
    | ok world => exact .ok rfl
    | error reason => exact .error reason
  exportDirectories := by
    rintro previous current r _ rfl
    rfl

namespace Shell

variable (H : Host σ)

/-- The shell in a world with an empty log. -/
def recorded (sh : Shell σ) : Shell (Recorded σ) :=
  { sh with world := { world := sh.world } }

/-- The shell with its log forgotten. -/
def forget (sh : Shell (Recorded σ)) : Shell σ :=
  { sh with world := sh.world.world }

@[simp] theorem forget_world (sh : Shell (Recorded σ)) : (forget sh).world = sh.world.world := rfl

/-- Note that a line is handed on. -/
def noteLine (line : Text) : Act (Recorded σ) Unit :=
  modify fun sh => { sh with
    world := sh.world.note
      (.handed line (!sh.interpreter.foregroundOnly) sh.signals.stops) sh.world.world }

/-- Note that a line is handed on, and execute it. -/
def executeNoted (line : Text) : Act (Recorded σ) Unit := do
  noteLine line
  execute H.recorded line

/-! ## Nothing is disturbed -/

variable {H} {α β : Type}

/-- What an action comes to, with the log forgotten. -/
def forgetResult : EStateM.Result Stop (Shell (Recorded σ)) α → EStateM.Result Stop (Shell σ) α
  | .ok a sh => .ok a (forget sh)
  | .error stop sh => .error stop (forget sh)

/-- Two actions come to the same but for the log. -/
def Mirrors (noted : Act (Recorded σ) α) (action : Act σ α) : Prop :=
  ∀ sh, forgetResult (noted sh) = action (forget sh)

/-- What simulates an action up to the log mirrors it. -/
theorem mirrors_of_simulates {noted : Act (Recorded σ) α} {action : Act σ α}
    (h : Simulates Recorded.Of noted action) : Mirrors noted action := by
  intro sh
  have hsame : SameResult Recorded.Of (noted sh) (action (forget sh)) := h sh sh.world.world rfl
  generalize noted sh = result at hsame ⊢
  generalize action (forget sh) = result' at hsame ⊢
  cases hsame with
  | ok a hworld =>
      obtain rfl := hworld
      rfl
  | error stop hworld =>
      obtain rfl := hworld
      rfl

variable (H)

/-- To execute a line on the recorded host is to execute it on the host, but for the log. -/
theorem mirrors_execute (line : Text) : Mirrors (execute H.recorded line) (execute H line) :=
  mirrors_of_simulates (simulates_execute H.alike_recorded line)

/-- That a line is handed on leaves no trace but in the log. -/
theorem simulates_executeNoted (line : Text) :
    Simulates Recorded.Of (executeNoted H line) (execute H line) := by
  intro sh world hworld
  have hnoted : noteLine line sh = .ok () { sh with
      world := sh.world.note
        (.handed line (!sh.interpreter.foregroundOnly) sh.signals.stops) sh.world.world } := rfl
  rw [executeNoted, bind_of_ok hnoted]
  exact simulates_execute H.alike_recorded line _ world hworld

/-- **Recording disturbs nobody.**  A stream whose lines are noted and executed on the recorded host
is served as it is on the host. -/
theorem serve_recorded (input : InputStream σ) (prompt : Option String) (fuel : Nat)
    (reader : LineReader) :
    Mirrors (serve H.recorded input.recorded prompt (executeNoted H) fuel reader)
      (serve H input prompt (execute H) fuel reader) :=
  mirrors_of_simulates
    (simulates_serve H.alike_recorded input.alike_recorded (simulates_executeNoted H) prompt fuel
      reader)

end Shell

end Conch
