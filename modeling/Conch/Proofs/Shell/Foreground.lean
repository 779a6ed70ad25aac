import Conch.Proofs.Jobs.Children
import Conch.Proofs.Shell.Action

/-!
# What becomes of a foreground program

The shell waits for a foreground program through any number of answers that do not say how it
ended.  When the answer comes the shell remembers it, prints a line if a signal killed the program,
tells its user about background jobs, and reads the next line.

All this hangs on the answer.  A program killed by a real-time signal has ended and is collected,
but the answer about it is an error, and no error of the system is one that a shell survives: the
shell fails with it, remembers nothing, and stops reading (`Abandons`).

* `conclusion?_append`: answers that say nothing are passed over;
* `waitFor_of_nameable`, `waitFor_of_not_nameable`: what waiting comes to;
* `recorded_iff_nameable`: a termination is recorded, and the shell goes on, exactly if it can be
  named.
-/

namespace Conch

/-- An answer that leaves the asker waiting: the child was stopped or continued, it has not ended,
or a signal interrupted the asker. -/
def WaitAnswer.Transient (answer : WaitAnswer) : Prop :=
  answer.completion? = none ∧ ∀ errno, answer = .failed errno → errno = .interrupted

/-- What is printed about a foreground program that has ended. -/
def Completion.noticeLines : Completion → List String
  | .exited _ => []
  | .killed signal => [s!"terminated by signal {signal}\n"]

namespace Shell

/-! ## Answers -/

/-- Answers that leave the shell waiting do not count: what is concluded is what the rest of them
says. -/
theorem conclusion?_append {before : List WaitAnswer}
    (hbefore : ∀ answer ∈ before, answer.Transient) (rest : List WaitAnswer) :
    conclusion? (before ++ rest) = conclusion? rest := by
  induction before with
  | nil => rfl
  | cons answer before ih =>
      have hrest := ih fun other hother => hbefore other (List.mem_cons_of_mem _ hother)
      obtain ⟨hnone, herrno⟩ := hbefore answer List.mem_cons_self
      cases answer with
      | failed errno =>
          obtain rfl := herrno errno rfl
          exact hrest
      | exited pid code => simp [WaitAnswer.completion?] at hnone
      | killed pid signal coreDumped => simp [WaitAnswer.completion?] at hnone
      | stopped pid signal => exact hrest
      | continued pid => exact hrest
      | stillAlive => exact hrest

/-- The answer about a child that has ended in a way that can be named. -/
theorem conclusion?_of_nameable {cause : Completion} (h : cause.Nameable) (pid : ProcessId)
    (rest : List WaitAnswer) : conclusion? (cause.answer pid :: rest) = some (.ok cause) := by
  cases cause with
  | exited code => rfl
  | killed signal =>
      have hlt : signal < firstRealTimeSignal := h
      simp [conclusion?, Completion.answer, hlt, WaitAnswer.completion?]

/-- The answer about a child that has ended in a way that cannot be named is an error. -/
theorem conclusion?_of_not_nameable {cause : Completion} (h : ¬ cause.Nameable) (pid : ProcessId)
    (rest : List WaitAnswer) :
    conclusion? (cause.answer pid :: rest) = some (.error .invalidArgument) := by
  cases cause with
  | exited code => exact absurd trivial h
  | killed signal =>
      have hnot : ¬ signal < firstRealTimeSignal := h
      simp [conclusion?, Completion.answer, hnot, WaitAnswer.completion?, Errno.invalidArgument,
        Errno.interrupted]

variable {σ : Type} (H : Host σ)

/-- The shell after it has heard how a foreground program ended. -/
def concluded (cause : Completion) (sh : Shell σ) : Shell σ :=
  { sh with
    interpreter := { sh.interpreter with status := sh.interpreter.status.record cause }
    world := printAll H cause.noticeLines sh.world }

/-! ## Waiting -/

section Waiting

variable {sh waited : Shell σ} {pid : ProcessId} {before : List WaitAnswer} {cause : Completion}

/-- Waiting for a program whose end can be named records it. -/
theorem waitFor_of_nameable (hbefore : ∀ answer ∈ before, answer.Transient)
    (hanswers : guarded H (request (H.wait pid)) sh = .ok (before ++ [cause.answer pid]) waited)
    (hcause : cause.Nameable) : waitFor H pid sh = .ok () (concluded H cause waited) := by
  have hconclusion := (conclusion?_append hbefore [cause.answer pid]).trans
    (conclusion?_of_nameable hcause pid [])
  rw [waitFor, bind_of_ok hanswers, hconclusion]
  cases cause <;> rfl

/-- Waiting for a program whose end cannot be named fails. -/
theorem waitFor_of_not_nameable (hbefore : ∀ answer ∈ before, answer.Transient)
    (hanswers : guarded H (request (H.wait pid)) sh = .ok (before ++ [cause.answer pid]) waited)
    (hcause : ¬ cause.Nameable) :
    waitFor H pid sh = .error (.failed (.system .invalidArgument)) waited := by
  have hconclusion := (conclusion?_append hbefore [cause.answer pid]).trans
    (conclusion?_of_not_nameable hcause pid [])
  rw [waitFor, bind_of_ok hanswers, hconclusion]
  rfl

end Waiting

/-! ## Foreground programs -/

/-- A foreground program that a shell runs: its process is created and ends, and the shell learns of
it after any number of answers that leave it waiting.  The program is no command that the shell runs
itself, and its words can be handed to it. -/
structure Foreground (sh : Shell σ) where
  command : Command
  isExternal : Builtin.ofName? command.program = none
  inFront : command.background = false
  fit : unfitWord? command.argv = none
  pid : ProcessId
  started : Shell σ
  creates : create H command sh = .ok (some pid) started
  before : List WaitAnswer
  transient : ∀ answer ∈ before, answer.Transient
  cause : Completion
  waited : Shell σ
  answers : guarded H (request (H.wait pid)) started = .ok (before ++ [cause.answer pid]) waited

/-- A round of the service of a stream comes to a line that starts a program: the line is read, the
signals that were caught are taken note of, and what the line says is the program. -/
structure Foreground.Round {H : Host σ} {sh : Shell σ} (program : Foreground H sh)
    (input : InputStream σ) (prompt : Option String) where
  start : Shell σ
  reader : LineReader
  line : Text
  next : Shell σ
  after : LineReader
  reads : attempt H input prompt reader start = .ok (.line line, after) next
  polls : pollSignals H next = .ok () sh
  parses : Command.parse line sh.pid (!sh.interpreter.foregroundOnly) = .ok (some program.command)

namespace Foreground

variable {H} {sh : Shell σ} (program : Foreground H sh)

/-- The shell after the program has ended as it should: how it ended is remembered and printed if a
signal killed it, and the user has been told about background jobs. -/
def done : Shell σ :=
  notified H (concluded H program.cause program.waited)

/-- The end of the program is recorded: running it succeeds, and it counts as the last one, with its
true cause.  Wherever the program is started by a line of a stream, the shell goes on and reads the
next line. -/
structure Recorded : Prop where
  launched : launch H program.command sh = .ok () program.done
  last : program.done.interpreter.status.last = program.cause
  served : ∀ (input : InputStream σ) (prompt : Option String) (round : program.Round input prompt)
    (fuel : Nat), serve H input prompt (execute H) (fuel + 1) round.reader round.start =
      serve H input prompt (execute H) fuel round.after program.done

/-- The shell fails at what it was told when it ran the program, and ends the service of whatever
stream the line comes from: no further line of it is read. -/
structure Abandons : Prop where
  launched : launch H program.command sh =
    .error (.failed (.system .invalidArgument)) program.waited
  served : ∀ (input : InputStream σ) (prompt : Option String) (round : program.Round input prompt)
    (fuel : Nat), serve H input prompt (execute H) (fuel + 1) round.reader round.start =
      .error (.failed (.system .invalidArgument)) program.waited

/-- Once the process is there, the shell waits for it and notifies its user. -/
theorem launch_eq : launch H program.command sh =
    (waitFor H program.pid >>= fun _ => notify H) program.started := by
  have hget : (get : Act σ (Shell σ)) sh = .ok sh sh := rfl
  rw [launch, bind_of_ok hget, program.fit, program.inFront, Bool.false_and,
    if_neg Bool.false_ne_true]
  exact bind_of_ok program.creates

/-- A line that starts the program does nothing but that. -/
theorem execute_eq {line : Text} (hparse : Command.parse line sh.pid
    (!sh.interpreter.foregroundOnly) = .ok (some program.command)) :
    execute H line sh = launch H program.command sh := by
  have hget : (get : Act σ (Shell σ)) sh = .ok sh sh := rfl
  rw [execute, bind_of_ok hget, hparse]
  simp only [run, program.isExternal]

/-- A round that comes to the program runs it, reports what has to be reported, and goes on. -/
theorem serve_eq {input : InputStream σ} {prompt : Option String}
    (round : program.Round input prompt) (fuel : Nat) :
    serve H input prompt (execute H) (fuel + 1) round.reader round.start =
      (reporting H (execute H round.line) >>= fun _ =>
        serve H input prompt (execute H) fuel round.after) sh := by
  rw [serve_succ, bind_of_ok round.reads, answerOutcome, bind_of_ok round.polls]

/-- A program whose end can be named is recorded, and the shell reads on. -/
theorem recorded_of_nameable (hcause : program.cause.Nameable) : program.Recorded := by
  have hlaunch : launch H program.command sh = .ok () program.done := by
    rw [program.launch_eq,
      bind_of_ok (waitFor_of_nameable H program.transient program.answers hcause), notify_eq]
    rfl
  refine ⟨hlaunch, ExitStatus.last_record _ _, fun input prompt round fuel => ?_⟩
  have hexecute := (program.execute_eq round.parses).trans hlaunch
  rw [program.serve_eq, bind_of_ok (reporting_of_ok H hexecute)]

/-- A program whose end cannot be named makes the shell fail. -/
theorem abandons_of_not_nameable (hcause : ¬ program.cause.Nameable) : program.Abandons := by
  have hlaunch : launch H program.command sh =
      .error (.failed (.system .invalidArgument)) program.waited := by
    rw [program.launch_eq,
      bind_of_error (waitFor_of_not_nameable H program.transient program.answers hcause)]
  refine ⟨hlaunch, fun input prompt round fuel => ?_⟩
  have hexecute := (program.execute_eq round.parses).trans hlaunch
  have hreport : reporting H (execute H round.line) sh =
      .error (.failed (.system .invalidArgument)) program.waited :=
    reporting_of_failed H hexecute
  rw [program.serve_eq, bind_of_error hreport]

/-- A shell that fails at what it was told has recorded nothing, so the two do not go together. -/
theorem not_recorded_of_abandons (h : program.Abandons) : ¬ program.Recorded := by
  intro hrecorded
  have hboth := h.launched.symm.trans hrecorded.launched
  simp at hboth

/-- **The end of a foreground program is recorded exactly if it can be named.**  Whatever the state
of the shell, the program and the answers before the last one: a program that exits, or is killed by
a signal below the real-time ones, is remembered as the last with its true cause, a line is printed
if a signal killed it and none otherwise, and the next line of the stream is read; a program killed
by a real-time signal makes the shell fail and ends the service of the stream. -/
theorem recorded_iff_nameable :
    (program.Recorded ↔ program.cause.Nameable) ∧
      (program.Abandons ↔ ¬ program.cause.Nameable) := by
  by_cases hcause : program.cause.Nameable
  · have hrecorded := program.recorded_of_nameable hcause
    have hnot : ¬ program.Abandons := fun h => program.not_recorded_of_abandons h hrecorded
    exact ⟨iff_of_true hrecorded hcause, iff_of_false hnot (not_not.mpr hcause)⟩
  · have habandons := program.abandons_of_not_nameable hcause
    exact ⟨iff_of_false (program.not_recorded_of_abandons habandons) hcause,
      iff_of_true habandons hcause⟩

end Foreground

/-- A foreground program that ends in a given way, after two answers that leave the shell
waiting. -/
def sampleForeground (cause : Completion) :
    Foreground (sampleHost [.failed .interrupted, .stopped ⟨7⟩ 19, cause.answer ⟨7⟩])
      (sampleShell {}) where
  command := { program := ['s', 'h'], arguments := [], background := false, redirects := {} }
  isExternal := by decide
  inFront := rfl
  fit := by decide
  pid := ⟨7⟩
  started := sampleShell {}
  creates := rfl
  before := [.failed .interrupted, .stopped ⟨7⟩ 19]
  transient := by simp [WaitAnswer.Transient, WaitAnswer.completion?]
  cause
  waited := sampleShell {}
  answers := rfl

/-- A death by a signal is printed. -/
example : (sampleForeground (.killed 9)).done.world.printed = ["terminated by signal 9\n"] := by
  decide

/-- A program that is killed by the first real-time signal is not recorded. -/
theorem abandons_of_real_time_signal :
    ¬ (sampleForeground (.killed 34)).Recorded ∧ (sampleForeground (.killed 34)).Abandons := by
  have hcause : ¬ (sampleForeground (.killed 34)).cause.Nameable := by decide
  have habandons := (sampleForeground (.killed 34)).abandons_of_not_nameable hcause
  exact ⟨(sampleForeground (.killed 34)).not_recorded_of_abandons habandons, habandons⟩

end Shell

end Conch
