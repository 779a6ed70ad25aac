import Conch.Proofs.Jobs.Texts
import Conch.Proofs.Shell.Recording

/-!
# What executing a line leaves alone

However a line is executed, and whatever signals come in meanwhile, the shell does not change
whether it heeds background markers, says nothing about that, and reads no further line: only the
count of the stop signals that have been handled may grow (`Steady`).  The changes of the mode are
all made where the shell polls its signals, between lines.

The texts that a shell prints while it executes a line are told apart from the announcements of its
mode by their first character.
-/

namespace Conch

/-- The line that announces whether background markers are ignored from now on. -/
def announcement (foregroundOnly : Bool) : String :=
  Interpreter.modeText foregroundOnly ++ "\n"

namespace Event

/-- The announcement of a mode, if the event is one. -/
def announcement? : Event → Option String
  | printed text =>
    if text = announcement true ∨ text = announcement false then some text else none
  | _ => none

/-- What a stream would have given, if the event is that the shell turned to it. -/
def offered? : Event → Option (List ReadAnswer)
  | read offered => some offered
  | _ => none

/-- The line that is handed on, if one is. -/
def handed? : Event → Option Text
  | handed line _ _ => some line
  | _ => none

/-- The event is about neither modes nor lines: it announces no mode, reads nothing and hands on no
line. -/
structure Plain (event : Event) : Prop where
  announcement : event.announcement? = none
  offered : event.offered? = none
  handed : event.handed? = none

/-- A text that does not begin like an announcement is none. -/
theorem plain_printed {text : String} (h : text.toList.head? ≠ some 'E') :
    (printed text).Plain := by
  have hno : ∀ mode, text ≠ Conch.announcement mode := by
    rintro mode rfl
    cases mode <;> exact h (by decide)
  exact ⟨by simp [announcement?, hno], rfl, rfl⟩

end Event

namespace Shell

variable {σ : Type}

/-- The mode is the same, and nothing was said about it; no line was read or handed on.  Nobody has
asked for the stop signals, and none of them is forgotten. -/
structure Steady (sh sh' : Shell (Recorded σ)) : Prop where
  log : ∃ new, sh'.world.log = sh.world.log ++ new ∧ ∀ event ∈ new, event.Plain
  mode : sh'.interpreter.foregroundOnly = sh.interpreter.foregroundOnly
  taken : sh'.signals.stopsTaken = sh.signals.stopsTaken
  stops : sh.signals.stops ≤ sh'.signals.stops

/-- What an action may do while a line is executed. -/
def steady : Frame (Recorded σ) where
  Allows := Steady
  refl _ := ⟨⟨[], by simp⟩, rfl, rfl, Nat.le_refl _⟩
  trans h h' := by
    obtain ⟨new, hlog, hnew⟩ := h.log
    obtain ⟨new', hlog', hnew'⟩ := h'.log
    refine ⟨⟨new ++ new', by rw [hlog', hlog, List.append_assoc], fun event hevent => ?_⟩,
      h'.mode.trans h.mode, h'.taken.trans h.taken, Nat.le_trans h.stops h'.stops⟩
    rcases List.mem_append.mp hevent with hevent | hevent
    · exact hnew event hevent
    · exact hnew' event hevent

variable (H : Host σ)

/-- To note one more event, if it is about neither modes nor lines, is steady. -/
theorem steady_note (sh : Shell (Recorded σ)) {event : Event} (h : event.Plain) (world : σ) :
    Steady sh { sh with world := sh.world.note event world } :=
  ⟨⟨[event], rfl, by simpa using h⟩, rfl, rfl, Nat.le_refl _⟩

/-- Changes of the shell that are about neither modes nor signals. -/
theorem steady_of_same {sh sh' : Shell (Recorded σ)} (hworld : sh'.world = sh.world)
    (hmode : sh'.interpreter.foregroundOnly = sh.interpreter.foregroundOnly)
    (hsignals : sh'.signals = sh.signals) : Steady sh sh' :=
  ⟨⟨[], by simp [hworld]⟩, hmode, by rw [hsignals], Nat.le_of_eq (by rw [hsignals])⟩

/-! ## Signals -/

/-- What has become of the control signals, if the process lives on, is that some stop signals were
handled at most. -/
def CountsOn (signals : SignalState) : Fate → Prop
  | .alive signals' =>
    signals'.stopsTaken = signals.stopsTaken ∧ signals.stops ≤ signals'.stops
  | .killed _ _ => True

theorem countsOn_alive (signals : SignalState) : CountsOn signals (.alive signals) :=
  ⟨rfl, Nat.le_refl _⟩

/-- If each of two things forgets no stop signal and asks for none, neither do both. -/
theorem countsOn_andThen {signals : SignalState} {fate : Fate} {next : SignalState → Fate}
    (h : CountsOn signals fate) (hnext : ∀ signals, CountsOn signals (next signals)) :
    CountsOn signals (fate.andThen next) := by
  cases fate with
  | killed signal announced => exact h
  | alive signals' =>
      have hthen := hnext signals'
      rw [Fate.andThen]
      cases hfate : next signals' with
      | killed signal announced => exact trivial
      | alive signals'' =>
          rw [hfate] at hthen
          exact ⟨hthen.1.trans h.1, Nat.le_trans h.2 hthen.2⟩

/-- A signal that is delivered is counted if it is a stop signal and is handled. -/
theorem countsOn_deliver (signals : SignalState) (c : ControlSignal) :
    CountsOn signals (signals.deliver c) := by
  unfold SignalState.deliver
  split
  · cases c with
    | interrupt => exact trivial
    | terminate => exact trivial
    | stop => exact countsOn_alive signals
  · exact countsOn_alive signals
  · cases c with
    | interrupt => exact ⟨rfl, Nat.le_refl _⟩
    | terminate => exact trivial
    | stop => exact ⟨rfl, Nat.le_succ _⟩

/-- A signal that is raised is counted or comes to wait, and none is forgotten. -/
theorem countsOn_raise (c : ControlSignal) (signals : SignalState) :
    CountsOn signals (signals.raise c) := by
  unfold SignalState.raise
  split
  · exact ⟨rfl, Nat.le_refl _⟩
  · exact countsOn_deliver signals c

/-- A signal that is let go is counted if it was due, and none is forgotten. -/
theorem countsOn_release (c : ControlSignal) (signals : SignalState) :
    CountsOn signals (signals.release c) := by
  unfold SignalState.release
  split
  · exact countsOn_deliver { signals with pending := signals.pending.set c false } c
  · exact countsOn_alive signals

/-- To put a mask back counts what becomes due by that, and forgets nothing. -/
theorem countsOn_setBlocked (mask : PerSignal Bool) (signals : SignalState) :
    CountsOn signals (signals.setBlocked mask) := by
  have hreleases := countsOn_andThen
    (countsOn_release .interrupt { signals with blocked := mask }) fun signals =>
      countsOn_andThen (countsOn_release .terminate signals) (countsOn_release .stop)
  exact hreleases

/-- A service that is noted as neither about modes nor about lines. -/
theorem steady_request {α : Type} {f : Recorded σ → α × Recorded σ}
    (h : ∀ r, ∃ event world, event.Plain ∧ (f r).2 = r.note event world) :
    steady.Bounds (request f) := by
  intro sh
  obtain ⟨event, world, hplain, hnote⟩ := h sh.world
  have hleft : left (request f sh) = { sh with world := (f sh.world).2 } := rfl
  rw [hleft, hnote]
  exact steady_note sh hplain world

/-- To print is steady unless the text could announce a mode. -/
theorem steady_print {text : String} (h : text.toList.head? ≠ some 'E') :
    steady.Bounds (print H.recorded text) :=
  steady.bounds_modify fun sh => steady_note sh (Event.plain_printed h) _

/-- What happens to the control signals is steady if no stop signal is forgotten by it. -/
theorem steady_adjust {f : SignalState → Fate} (h : ∀ signals, CountsOn signals (f signals)) :
    steady.Bounds (adjust H.recorded f) := by
  intro sh
  have hcounts := h sh.signals
  have hrun : adjust H.recorded f sh = undergo H.recorded (f sh.signals) sh := rfl
  rw [hrun]
  cases hfate : f sh.signals with
  | alive signals =>
      rw [hfate] at hcounts
      exact ⟨⟨[], (List.append_nil _).symm, by simp⟩, rfl, hcounts.1, hcounts.2⟩
  | killed signal announced =>
      cases announced with
      | false => exact steady.refl sh
      | true =>
          have hgroup : steady.Bounds (affect H.recorded.terminateGroup) :=
            steady.bounds_modify fun sh => steady_note sh ⟨rfl, rfl, rfl⟩ _
          exact steady.bounds_bind (steady_print H (by decide))
            (fun _ => steady.bounds_bind hgroup fun _ => steady.bounds_throw _) sh

/-- A signal that comes in is counted, and the mode stays as it is. -/
theorem steady_receive (number : Int) : steady.Bounds (receive H.recorded number) := by
  unfold receive
  cases ControlSignal.ofNumber? number with
  | some signal => exact steady_adjust H (countsOn_raise signal)
  | none =>
      dsimp only
      split
      · exact steady.bounds_pure ()
      · exact steady.bounds_throw _

/-- Taking in signals leaves the mode as it is: stop signals are counted, and turned into changes
later. -/
theorem steady_takeSignals : steady.Bounds (takeSignals H.recorded) :=
  steady.bounds_bind (steady_request fun _ => ⟨_, _, ⟨rfl, rfl, rfl⟩, rfl⟩) fun _ =>
    steady.bounds_forM fun number _ => steady_receive H number

/-! ## Jobs -/

/-- A sweep notes its questions and answers, which are about neither modes nor lines. -/
theorem steady_sweepJobs (jobs : List Job) (sh : Shell (Recorded σ)) :
    Steady sh { sh with world := (JobTable.sweepJobs H.recorded.poll jobs sh.world).world } := by
  induction jobs generalizing sh with
  | nil => exact steady.refl sh
  | cons job jobs ih =>
      have hasked : Steady sh { sh with world := (H.recorded.poll job.pid sh.world).2 } :=
        steady_note sh ⟨rfl, rfl, rfl⟩ _
      have hrest := ih { sh with world := (H.recorded.poll job.pid sh.world).2 }
      rw [JobTable.world_sweepJobs_cons]
      exact steady.trans hasked hrest

/-- The report on a job does not begin like an announcement. -/
theorem head_jobText (job : Job) : (job.text ++ "\n").toList.head? ≠ some 'E' := by
  rw [Job.head?_text]
  decide

/-- The announcement of a job does not begin as that of a mode does. -/
theorem head_begunText (pid : ProcessId) :
    (Job.begunText pid ++ "\n").toList.head? ≠ some 'E' := by
  rw [Job.head?_begunText]
  decide

/-- The words for a completion do not begin as the announcement of a mode does. -/
theorem head_completionText (cause : Completion) :
    (cause.text ++ "\n").toList.head? ≠ some 'E' := by
  rcases cause.head?_text with h | h <;> rw [h] <;> decide

/-- A notification is steady: what it prints about jobs announces no mode. -/
theorem steady_notify : steady.Bounds (notify H.recorded) := by
  intro sh
  have hswept : Steady sh { sh with
      jobs := (sh.jobs.sweep H.recorded.poll sh.world).2.1
      world := (sh.jobs.sweep H.recorded.poll sh.world).2.2 } :=
    steady.trans (steady_sweepJobs H sh.jobs.jobs sh) (steady_of_same rfl rfl rfl)
  have hprinted := steady.bounds_forM
    (fun job (_ : job ∈ (sh.jobs.sweep H.recorded.poll sh.world).1) =>
      steady_print H (head_jobText job))
  exact steady.trans hswept (hprinted _)

/-! ## Lines -/

variable {α : Type}

/-- So does an action for which the control signals are held off, if it does so by itself. -/
theorem steady_guarded {action : Act (Recorded σ) α} (h : steady.Bounds action) :
    steady.Bounds (guarded H.recorded action) := by
  refine steady.bounds_bind steady.bounds_get fun sh => ?_
  refine steady.bounds_bind (steady.bounds_modify fun _ =>
    ⟨⟨[], (List.append_nil _).symm, by simp⟩, rfl, rfl, Nat.le_refl _⟩) fun _ => ?_
  refine steady.bounds_bind (steady_takeSignals H) fun _ => ?_
  refine steady.bounds_bind h fun a => ?_
  refine steady.bounds_bind (steady_takeSignals H) fun _ => ?_
  refine steady.bounds_bind (steady_adjust H (countsOn_setBlocked _)) fun _ => ?_
  exact steady.bounds_pure a

/-- Installing handlers counts no stop signal and forgets none. -/
theorem steady_install (set : HandlerSet) : (steady (σ := σ)).Bounds
    (modify fun sh => { sh with signals := sh.signals.install set }) :=
  steady.bounds_modify fun _ => ⟨⟨[], (List.append_nil _).symm, by simp⟩, rfl, rfl, Nat.le_refl _⟩

theorem steady_create (command : Command) : steady.Bounds (create H.recorded command) := by
  apply steady_guarded
  refine steady.bounds_bind (steady_install _) fun _ => ?_
  refine steady.bounds_bind (steady_takeSignals H) fun _ => ?_
  refine steady.bounds_bind steady.bounds_get fun sh => ?_
  refine steady.bounds_bind (steady_request fun _ => ⟨_, _, ⟨rfl, rfl, rfl⟩, rfl⟩) fun pid => ?_
  refine steady.bounds_bind (steady_takeSignals H) fun _ => ?_
  refine steady.bounds_bind (steady_install _) fun _ => ?_
  exact steady.bounds_pure pid

theorem steady_waitFor (pid : ProcessId) : steady.Bounds (waitFor H.recorded pid) := by
  refine steady.bounds_bind
    (steady_guarded H (steady_request fun _ => ⟨_, _, ⟨rfl, rfl, rfl⟩, rfl⟩)) fun answers => ?_
  rcases conclusion? answers with _ | errno | cause
  · exact steady.bounds_throw _
  · exact steady.bounds_throw _
  · refine steady.bounds_bind (steady.bounds_modify fun _ => steady_of_same rfl rfl rfl) fun _ => ?_
    cases cause with
    | exited code => exact steady.bounds_pure ()
    | killed signal => exact steady_print H (head_completionText _)

theorem steady_track (pid : ProcessId) : steady.Bounds (track H.recorded pid) := by
  refine steady.bounds_bind (steady_print H (head_begunText pid)) fun _ =>
    steady.bounds_bind steady.bounds_get fun sh => ?_
  cases sh.jobs.register? pid with
  | none => exact steady.bounds_bind steady.bounds_get fun _ => steady.bounds_throw _
  | some jobs => exact steady.bounds_modify fun _ => steady_of_same rfl rfl rfl

theorem steady_launch (command : Command) : steady.Bounds (launch H.recorded command) := by
  refine steady.bounds_bind steady.bounds_get fun sh => ?_
  refine steady.bounds_ite (steady.bounds_bind (steady.bounds_throw _) fun _ => ?_) ?_ <;>
  · cases unfitWord? command.argv with
    | some word => exact steady.bounds_throw _
    | none =>
        refine steady.bounds_bind (steady_create H command) fun created => ?_
        cases created with
        | none => exact steady.bounds_throw _
        | some pid =>
            exact steady.bounds_ite
              (steady.bounds_bind (steady_track H pid) fun _ => steady_notify H)
              (steady.bounds_bind (steady_waitFor H pid) fun _ => steady_notify H)

theorem steady_leave (code : Option Int) :
    steady.Bounds (leave H.recorded code : Act (Recorded σ) α) := by
  refine steady.bounds_bind steady.bounds_get fun sh => steady.bounds_bind ?_ fun _ => ?_
  · apply steady.bounds_forM
    intro pid _
    exact steady.bounds_bind (steady_request fun _ => ⟨_, _, ⟨rfl, rfl, rfl⟩, rfl⟩) fun _ =>
      steady.bounds_pure _
  · exact steady.bounds_bind steady.bounds_get fun _ => steady.bounds_throw _

theorem steady_runChangeDirectory (arguments : List Word) :
    steady.Bounds (runChangeDirectory H.recorded arguments) := by
  refine steady.bounds_ite (steady.bounds_bind (steady.bounds_throw _) fun _ => ?_) ?_ <;>
  · cases Builtin.directoryUsage.fit arguments with
    | error fault => exact steady.bounds_throw _
    | ok matched =>
        refine steady.bounds_get_bind fun sh => ?_
        have hmove : ∀ target, H.recorded.changeDirectory target sh.world =
            (H.changeDirectory target sh.world.world).map (sh.world.note (.moved target)) :=
          fun _ => rfl
        have hmoved : ∀ target, (Event.moved target).Plain := fun _ => ⟨rfl, rfl, rfl⟩
        simp only [hmove]
        cases H.recorded.workingDirectory sh.world with
        | error reason => exact steady.refl sh
        | ok here =>
            dsimp only
            cases directoryTarget (matched.positional? "<dir>") here (H.recorded.home sh.world) with
            | none => exact steady.refl sh
            | some target =>
                dsimp only
                cases H.changeDirectory target sh.world.world with
                | error reason => exact steady.refl sh
                | ok world =>
                    exact steady.trans (steady_note sh (hmoved target) world)
                      (steady_note _ ⟨rfl, rfl, rfl⟩ _)

/-- **A command does not change the mode**, be it one of the shell's own or a program. -/
theorem steady_run (command : Command) : steady.Bounds (run H.recorded command) := by
  unfold run
  cases Builtin.ofName? command.program with
  | none => exact steady_launch H command
  | some builtin =>
      cases builtin with
      | changeDirectory =>
          dsimp only [runBuiltin]
          rw [bind_assoc]
          refine steady.bounds_bind (steady_runChangeDirectory H _) fun _ => ?_
          rw [pure_bind]
          exact steady_print H (by decide)
      | exit =>
          dsimp only [runBuiltin]
          rw [leave_bind]
          exact steady_leave H _
      | status =>
          dsimp only [runBuiltin]
          rw [bind_assoc]
          refine steady.bounds_bind steady.bounds_get fun sh => ?_
          rw [pure_bind]
          exact steady_print H (head_completionText _)

/-- **Executing a line leaves the mode alone**, whatever the line is and whatever comes of it. -/
theorem steady_execute (line : Text) : steady.Bounds (execute H.recorded line) := by
  refine steady.bounds_bind steady.bounds_get fun sh => ?_
  rcases Command.parse line sh.pid (!sh.interpreter.foregroundOnly) with fault | _ | command
  · exact steady.bounds_throw _
  · exact steady.bounds_pure _
  · exact steady_run H command

/-- Reporting what has gone wrong with a line leaves the mode alone. -/
theorem steady_reporting {action : Act (Recorded σ) Unit} (h : steady.Bounds action) :
    steady.Bounds (reporting H.recorded action) := by
  refine steady.bounds_tryCatch h fun stop => ?_
  cases stop with
  | failed e =>
      exact steady.bounds_ite (steady.bounds_modify fun sh => steady_note sh ⟨rfl, rfl, rfl⟩ _)
        (steady.bounds_throw _)
  | ended ending => exact steady.bounds_throw _

end Shell

end Conch
