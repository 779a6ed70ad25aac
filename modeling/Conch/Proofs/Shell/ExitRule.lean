import Conch.CommandLine
import Conch.Proofs.Shell.ScriptFile
import Conch.Proofs.Shell.Status
import Conch.Proofs.Text.Encoding

/-!
# The code with which the program exits

The rule is the same wherever the commands come from: zero if the shell was told to leave, the code
of failure if an error that cannot be mended has ended the run, and otherwise the code of the last
foreground program, which is zero if there was none (`ruled`).  Which programs there were is read
off the log of the run.

The program keeps the rule for the lines of a file and for those of standard input, whatever
happens.  A single line that is turned down is the exception: its error could be mended, so nothing
but reporting it should come of it, and the program reports it and exits with the code of failure
(`exit_rule_kept_iff`).

* `settled_noted`: what is known of a run from its log;
* `ending_conclude`: what the program makes of the result of a run;
* `ending_script`: how it ends for a file that holds one line.
-/

namespace Conch

/-- Are commands to be executed? -/
def CommandSource.GivesCommands : CommandSource → Prop
  | .line _ | .file _ | .standardInput => True
  | .version | .missingLine => False

namespace CommandLine

open Shell

variable {σ : Type} (H : Host σ)

/-! ## Runs -/

/-- Execute the commands of a source. -/
def commands : CommandSource → Act σ Unit
  | .line text => execute H text
  | .file path => executeFile H path
  | .standardInput => executeStandardInput H
  | .version | .missingLine => pure ()

/-- Execute the lines of a stream, and note each of them. -/
def streamNoted (input : InputStream (Recorded σ)) (prompt : Option String) :
    Act (Recorded σ) Unit := do
  serve H.recorded input prompt (executeNoted H) (input.bound (← get).world + 1) {}

/-- Execute the commands of a source, and note each line that is handed on. -/
def noted : CommandSource → Act (Recorded σ) Unit
  | .line text => executeNoted H text
  | .file path => do
    match H.recorded.openLines path (← get).world with
    | .error reason => fail (.io reason)
    | .ok (input, world) =>
      modify fun sh => { sh with world }
      streamNoted H input none
  | .standardInput => do
    streamNoted H H.recorded.standardInput
      (if (← get).config.interactive then some promptText else none)
  | .version | .missingLine => pure ()

/-- The shell that is started for an invocation. -/
def started (terminal : Bool) (pid : UInt32) (signals : SignalState) (invocation : Invocation)
    (world : σ) : Shell σ :=
  .fresh
    { interactive := terminal && invocation.source == .standardInput
      jobCapacity := invocation.maxJobs }
    pid signals (openLog H invocation.log world)

/-- How a run should end that has come to this, by the rule. -/
def ruled (pid : UInt32) : EStateM.Result Stop (Shell (Recorded σ)) Unit → Ending
  | .ok () sh => .exited (exitCode pid (handedLines sh.world.log))
  | .error (.failed e) sh =>
    .exited (if e.isRecoverable then exitCode pid (handedLines sh.world.log) else failureCode)
  | .error (.ended (.exited _)) sh => .exited (exitCode pid (handedLines sh.world.log))
  | .error (.ended ending) _ => ending

/-- To note the lines that are handed on disturbs nobody: the commands of a source do the same with
a log and without. -/
theorem mirrors_noted (source : CommandSource) : Mirrors (noted H source) (commands H source) := by
  have hstream : ∀ (input : InputStream σ) (prompt : Option String) (sh : Shell (Recorded σ)),
      forgetResult (streamNoted H input.recorded prompt sh) =
        executeStream H input prompt (forget sh) :=
    fun input prompt sh => serve_recorded H input prompt _ {} sh
  cases source with
  | line text => exact mirrors_of_simulates (simulates_executeNoted H text)
  | file path =>
      intro sh
      have hnoted : (get : Act (Recorded σ) _) sh = .ok sh sh := rfl
      have hplain : (get : Act σ _) (forget sh) = .ok (forget sh) (forget sh) := rfl
      rw [noted, commands, executeFile, bind_of_ok hnoted, bind_of_ok hplain, openLines_recorded,
        forget_world]
      cases H.openLines path sh.world.world with
      | error reason => rfl
      | ok opened => exact hstream opened.1 none _
  | standardInput => exact fun sh => hstream H.standardInput _ sh
  | version => exact fun _ => rfl
  | missingLine => exact fun _ => rfl

/-! ## What comes of the lines of a stream -/

section Failures

variable {α β : Type}

/-- If the action fails, it fails for good. -/
def FailsForGood (action : Act σ α) : Prop :=
  ∀ sh e sh', action sh = .error (.failed e) sh' → e.isRecoverable = false

/-- If neither of two actions fails in a way that can be mended, neither do both together. -/
theorem failsForGood_bind {action : Act σ α} {rest : α → Act σ β} (h : FailsForGood action)
    (hrest : ∀ a, FailsForGood (rest a)) : FailsForGood (action >>= rest) := by
  intro sh e sh' hrun
  rcases of_bind_eq_error hrun with hfirst | ⟨a, mid, -, hlater⟩
  · exact h sh e sh' hfirst
  · exact hrest a mid e sh' hlater

/-- What only a signal can cut short does not fail. -/
theorem failsForGood_of_onlyKills {action : Act σ α} (h : OnlyKills action) :
    FailsForGood action := by
  intro sh e sh' hrun
  obtain ⟨number, hkilled⟩ := h sh _ sh' hrun
  cases hkilled

/-- To turn stop signals into changes of the mode fails for nothing. -/
theorem failsForGood_pollSignals : FailsForGood (pollSignals H) := by
  intro sh e sh' hrun
  obtain ⟨polled, hpoll, -⟩ := pollSignals_ok H sh
  cases hpoll.symm.trans hrun

/-- What is left to fail after a report cannot be mended, since all else was reported. -/
theorem failsForGood_reporting (action : Act σ Unit) : FailsForGood (reporting H action) := by
  intro sh e sh' hrun
  rcases haction : action sh with ⟨⟨⟩, done⟩ | ⟨e' | ending, done⟩
  · rw [reporting_of_ok H haction] at hrun
    cases hrun
  · rw [reporting_of_failed H haction] at hrun
    cases hrecoverable : e'.isRecoverable with
    | true =>
        rw [hrecoverable] at hrun
        cases hrun
    | false =>
        rw [hrecoverable] at hrun
        obtain ⟨⟨⟩, -⟩ := EStateM.Result.error.inj hrun
        exact hrecoverable
  · rw [reporting, tryCatch_of_error haction] at hrun
    cases hrun

/-- **No error of a line that can be mended comes out of a stream.** -/
theorem failsForGood_serve (input : InputStream σ) (prompt : Option String)
    (perform : Text → Act σ Unit) (fuel : Nat) (reader : LineReader) :
    FailsForGood (serve H input prompt perform fuel reader) := by
  have htake : FailsForGood (takeSignals H) := failsForGood_of_onlyKills (onlyKills_takeSignals H)
  have hplain : ∀ (f : Shell σ → Shell σ), FailsForGood (modify f) :=
    fun _ _ _ _ h => by cases h
  have hnotify : FailsForGood (notify H) := fun sh _ _ h => by cases (notify_eq H sh).symm.trans h
  have hprepare : FailsForGood (prepare H prompt) := by
    refine failsForGood_bind htake fun _ => ?_
    refine failsForGood_bind (failsForGood_pollSignals H) fun _ => ?_
    refine failsForGood_bind (hplain _) fun _ => failsForGood_bind hnotify fun _ => ?_
    cases prompt with
    | none => exact htake
    | some text => exact failsForGood_bind (hplain _) fun _ => htake
  have hread : ∀ reader, FailsForGood (readLine input reader) := fun _ _ _ _ h => by cases h
  -- By induction on the rounds.  What a line does is reported, all else cannot be mended.
  induction fuel generalizing reader with
  | zero => exact fun _ _ _ h => by cases h
  | succ fuel ih =>
      rw [serve_succ]
      refine failsForGood_bind ?_ fun read => ?_
      · refine failsForGood_bind hprepare fun _ => failsForGood_bind (hread reader) fun read => ?_
        exact failsForGood_bind htake fun _ _ _ _ h => by cases h
      · obtain ⟨outcome, reader'⟩ := read
        cases outcome with
        | failed errno =>
            intro sh e sh' hrun
            obtain ⟨⟨⟩, -⟩ := EStateM.Result.error.inj hrun
            rfl
        | endOfInput => exact failsForGood_pollSignals H
        | interrupted =>
            refine failsForGood_bind (failsForGood_pollSignals H) fun _ => ?_
            refine failsForGood_bind (fun _ _ _ h => by cases h) fun sh => ?_
            dsimp only
            split
            · exact failsForGood_bind (hplain _) fun _ => ih reader'
            · exact ih reader'
        | line text =>
            refine failsForGood_bind (failsForGood_pollSignals H) fun _ => ?_
            exact failsForGood_bind (failsForGood_reporting H _) fun _ => ih reader'

end Failures

/-- What is known of a run from its log: if it has come to its end the status is that of the last
program, and if the shell has left it has done so with the right code. -/
def Settled (pid : UInt32) : EStateM.Result Stop (Shell (Recorded σ)) Unit → Prop
  | .ok () sh => Kept pid sh
  | .error (.ended (.exited code)) sh => code = exitCode pid (handedLines sh.world.log)
  | .error _ _ => True

variable {H} {pid : UInt32} {sh sh' : Shell (Recorded σ)}

/-- What is a session, with whatever value, is settled at its end, since every session is. -/
theorem settled_of_plays {input : InputStream σ} {action : Act (Recorded σ) Unit}
    (hplays : Plays H input action) (h : Kept pid sh) : Settled pid (action sh) := by
  obtain ⟨turns, -, hplay⟩ := hplays sh
  rcases hrun : action sh with ⟨⟨⟩, sh'⟩ | ⟨e | ending, sh'⟩
  · rw [hrun] at hplay
    exact kept_play h hplay
  · exact trivial
  · cases ending with
    | exited code =>
        rw [hrun] at hplay
        exact (parting_play h hplay).2
    | _ => exact trivial

/-- A single line is a session, unless its error would be reported. -/
theorem settled_line {line : Text} (h : Kept pid sh) : Settled pid (executeNoted H line sh) := by
  rcases hrun : executeNoted H line sh with ⟨⟨⟩, sh'⟩ | ⟨e | ending, sh'⟩
  · have hact : (Turn.line line).act H sh = .ok () sh' := reporting_of_ok H.recorded hrun
    exact kept_turn h hact
  · exact trivial
  · cases ending with
    | exited code =>
        have hact : (Turn.line line).act H sh = .error (.ended (.exited code)) sh' :=
          tryCatch_of_error hrun
        exact (parting_turn h hact).2
    | _ => exact trivial

/-- **Executing the commands of a source is settled**, whether they are a line, a file or standard
input. -/
theorem settled_noted (source : CommandSource) (h : Kept pid sh) :
    Settled pid (noted H source sh) := by
  have hstream : ∀ (input : InputStream σ) (prompted : Bool) {sh : Shell (Recorded σ)},
      Kept pid sh → Settled pid (streamNoted H input.recorded
        (if prompted then some promptText else none) sh) :=
    fun input prompted _ h => settled_of_plays
      (plays_get H fun _ => plays_serve H (cut?_promptText prompted) _ {}) h
  cases source with
  | line text => exact settled_line h
  | file path =>
      have hget : (get : Act (Recorded σ) _) sh = .ok sh sh := rfl
      rw [noted, bind_of_ok hget, openLines_recorded]
      cases H.openLines path sh.world.world with
      | error reason => exact trivial
      | ok opened =>
          have hopened : Kept pid { sh with
              world := sh.world.note (.opened path) opened.2 } :=
            kept_of_adds h (adds_of_uneventful (uneventful_note sh (.opened path) trivial _))
          exact hstream opened.1 false hopened
  | standardInput => exact hstream H.standardInput sh.config.interactive h
  | version => exact h
  | missingLine => exact h

/-- The code of a shell that was not told to leave. -/
theorem exitCode_of_kept (h : Kept pid sh) :
    exitCode pid (handedLines sh.world.log) = sh.interpreter.status.last.code := by
  rw [h.last]
  cases hlines : handedLines sh.world.log with
  | nil => rfl
  | cons entry before =>
      have hstays := h.stays entry (hlines ▸ List.mem_cons_self)
      rw [exitCode, hstays]
      rfl

/-- Only a single line can be turned down in the end, since the lines of a stream are reported on
one by one. -/
theorem line_of_recoverable {source : CommandSource} {e : ShellError}
    (hrun : noted H source sh = .error (.failed e) sh') (hrecoverable : e.isRecoverable = true) :
    ∃ text, source = .line text := by
  have hstream : ∀ (input : InputStream (Recorded σ)) prompt sh,
      streamNoted H input prompt sh ≠ .error (.failed e) sh' := by
    intro input prompt sh hserve
    have hgood := failsForGood_serve H.recorded input prompt (executeNoted H) _ {} sh e sh' hserve
    rw [hrecoverable] at hgood
    cases hgood
  cases source with
  | line text => exact ⟨text, rfl⟩
  | file path =>
      have hget : (get : Act (Recorded σ) _) sh = .ok sh sh := rfl
      rw [noted, bind_of_ok hget] at hrun
      cases hopen : H.recorded.openLines path sh.world with
      | error reason =>
          rw [hopen] at hrun
          obtain ⟨⟨⟩, -⟩ := EStateM.Result.error.inj hrun
          cases hrecoverable
      | ok opened =>
          rw [hopen] at hrun
          exact absurd hrun (hstream opened.1 none _)
  | standardInput => exact absurd hrun (hstream _ _ sh)
  | version => cases hrun
  | missingLine => cases hrun

/-! ## How the program ends -/

/-- How the program ends after a run that has come to this. -/
def endingOf : EStateM.Result Stop (Shell σ) Unit → Ending
  | .ok () done => .exited done.interpreter.status.last.code
  | .error (.failed _) _ => .exited failureCode
  | .error (.ended ending) _ => ending

section Conclude

variable (H : Host σ) {action : Act σ Unit} {start done : Shell σ}

/-- If the commands have come to their end, the shell leaves with the code of the last foreground
program. -/
theorem conclude_of_ok (h : action start = .ok () done) :
    conclude H action start = (leave H none : Act σ Unit) done := by
  have hleave : (action >>= fun _ => (leave H none : Act σ Unit)) start =
      (leave H none : Act σ Unit) done := bind_of_ok h
  rw [leave_eq] at hleave ⊢
  exact tryCatch_of_error hleave

/-- If the commands have failed, the shell reports the error and leaves with the code for
failures. -/
theorem conclude_of_failed {e : ShellError} (h : action start = .error (.failed e) done) :
    conclude H action start = (report H e >>= fun _ => leave H (some failureCode)) done :=
  tryCatch_of_error (bind_of_error h)

/-- If the shell has ended while it executed the commands, it ends so. -/
theorem conclude_of_ended {ending : Ending} (h : action start = .error (.ended ending) done) :
    conclude H action start = .error (.ended ending) done :=
  tryCatch_of_error (bind_of_error h)

/-- **What the program makes of the result of a run.** -/
theorem ending_conclude (action : Act σ Unit) (start : Shell σ) :
    (outcome (conclude H action) start).1 = endingOf (action start) := by
  unfold outcome EStateM.run
  rcases hrun : action start with ⟨⟨⟩, done⟩ | ⟨e | ending, done⟩
  · rw [conclude_of_ok H hrun, leave_eq]
    rfl
  · have hreport : report H e done = .ok () (left (report H e done)) := rfl
    rw [conclude_of_failed H hrun, bind_of_ok hreport, leave_eq]
    rfl
  · rw [conclude_of_ended H hrun]
    rfl

end Conclude

/-- A program that is given commands does what these are, from a new shell, and then concludes. -/
theorem run_eq (H : Host σ) {terminal : Bool} {signals : SignalState} {arguments : List Text}
    {world : σ} {invocation : Invocation} (hread : read arguments = .accepted invocation)
    (hgives : invocation.source.GivesCommands) :
    (run H terminal pid signals arguments world).1 =
      (outcome (conclude H (commands H invocation.source))
        (started H terminal pid signals invocation world)).1 := by
  rw [run, hread]
  dsimp only
  cases hsource : invocation.source with
  | version => rw [hsource] at hgives; exact hgives.elim
  | missingLine => rw [hsource] at hgives; exact hgives.elim
  | _ => rw [started, hsource]; rfl

/-- A first line that is turned down leaves the code at zero. -/
theorem exitCode_of_turnedDown {line : Text} {start : Shell σ} {e : ShellError}
    (hrun : executeNoted H line (recorded start) = .error (.failed e) sh')
    (hrecoverable : e.isRecoverable = true) : exitCode pid (handedLines sh'.world.log) = 0 := by
  have hnote : noteLine line (recorded start) = .ok () (handedOn line (recorded start)) := rfl
  rw [executeNoted, bind_of_ok hnote] at hrun
  obtain ⟨-, rfl⟩ := (turnsDown_execute_iff H.recorded).mp ⟨hrun, hrecoverable⟩
  have hlines : handedLines (handedOn line (recorded start)).world.log =
      [handedLineOf line (recorded start)] := rfl
  rw [hlines, exitCode]
  split
  · rfl
  · rfl

/-- A line is not turned down if it fails for good, or not at all. -/
theorem not_refusal {H : Host σ} {line : Text} {start : Shell σ}
    (hgood : ∀ e done, execute H line start = .error (.failed e) done → e.isRecoverable = false) :
    ¬ ∃ e, Refusal H line start e := by
  rintro ⟨e, hreason⟩
  obtain ⟨hfailed, hrecoverable⟩ := (turnsDown_execute_iff H).mpr ⟨hreason, rfl⟩
  rw [hgood e start hfailed] at hrecoverable
  cases hrecoverable

/-- **The rule is kept**, except for a single line that is turned down. -/
theorem ending_eq_ruled_iff (H : Host σ) (source : CommandSource) {start : Shell σ}
    (hkept : Kept pid (recorded start)) :
    (outcome (conclude H (commands H source)) start).1 =
        ruled pid (noted H source (recorded start)) ↔
      ¬ ∃ text e, source = .line text ∧ Refusal H text start e := by
  have hmirror : forgetResult (noted H source (recorded start)) = commands H source start :=
    mirrors_noted H source (recorded start)
  have hsettled := settled_noted (H := H) source hkept
  -- Whatever else comes of the run, no line has been turned down.
  have hnone : (∀ e done, commands H source start = .error (.failed e) done →
      e.isRecoverable = false) → ¬ ∃ text e, source = .line text ∧ Refusal H text start e := by
    rintro hgood ⟨text, e, rfl, hreason⟩
    exact not_refusal hgood ⟨e, hreason⟩
  rw [ending_conclude]
  rcases hrun : noted H source (recorded start) with ⟨⟨⟩, sh'⟩ | ⟨e | ending, sh'⟩ <;>
    rw [hrun] at hmirror hsettled <;> rw [← hmirror] at hnone ⊢
  · have hcode := exitCode_of_kept hsettled
    exact iff_of_true (congrArg Ending.exited hcode.symm) (hnone fun _ _ h => by cases h)
  · have hcode : ruled pid (.error (.failed e) sh') = .exited
        (if e.isRecoverable then exitCode pid (handedLines sh'.world.log) else failureCode) := rfl
    rw [hcode]
    cases hrecoverable : e.isRecoverable with
    | true =>
        obtain ⟨text, rfl⟩ := line_of_recoverable hrun hrecoverable
        have hreason : Refusal H text start e :=
          ((turnsDown_execute_iff H).mp ⟨hmirror.symm, hrecoverable⟩).1
        refine iff_of_false ?_ (not_not_intro ⟨text, e, rfl, hreason⟩)
        rw [if_pos rfl, exitCode_of_turnedDown hrun hrecoverable]
        exact fun h => absurd (Ending.exited.inj h) (by decide)
    | false =>
        refine iff_of_true rfl (hnone fun e' _ hfailed => ?_)
        obtain ⟨⟨⟩, -⟩ := EStateM.Result.error.inj hfailed
        exact hrecoverable
  · refine iff_of_true ?_ (hnone fun _ _ h => by cases h)
    cases ending with
    | exited code => exact congrArg Ending.exited hsettled
    | _ => rfl

/-! ## A file that holds one line -/

section Single

variable {τ : Type} {H : Host σ} {K : Host τ}

theorem endingOf_same {R : σ → τ → Prop} {result : EStateM.Result Stop (Shell σ) Unit}
    {result' : EStateM.Result Stop (Shell τ) Unit} (h : SameResult R result result') :
    endingOf result = endingOf result' := by
  cases h with
  | ok => rfl
  | error stop => cases stop <;> rfl

/-- A shell without background jobs has nothing to tell, and a notification changes nothing. -/
theorem notified_of_no_jobs {start : Shell σ} (h : start.jobs.jobs = []) :
    notified H start = start := by
  obtain ⟨config, pid, ⟨jobs, capacity⟩, interpreter, signals, world⟩ := start
  obtain rfl : jobs = [] := h
  rfl

/-- To execute one line is to execute it, if it is not turned down. -/
theorem endingOf_executeLines {line : Text} {start : Shell σ} (hjobs : start.jobs.jobs = [])
    (hzero : start.interpreter.status.last.code = 0) :
    endingOf (executeLines H [line] start) = endingOf (execute H line start) ↔
      ¬ ∃ e, Refusal H line start e := by
  have hnone : (∀ e done, execute H line start = .error (.failed e) done →
      e.isRecoverable = false) → ¬ ∃ e, Refusal H line start e := not_refusal
  rw [executeLines, notified_of_no_jobs hjobs]
  rcases hrun : execute H line start with ⟨⟨⟩, done⟩ | ⟨e | ending, done⟩ <;> rw [hrun] at hnone
  · exact iff_of_true rfl (hnone fun _ _ h => by cases h)
  · cases hrecoverable : e.isRecoverable with
    | true =>
        obtain ⟨hreason, rfl⟩ := (turnsDown_execute_iff H).mp ⟨hrun, hrecoverable⟩
        refine iff_of_false (fun hsame => ?_) (not_not_intro ⟨e, hreason⟩)
        simp only [hrecoverable, if_true] at hsame
        have hcode : done.interpreter.status.last.code = 1 := Ending.exited.inj hsame
        rw [hzero] at hcode
        cases hcode
    | false =>
        refine iff_of_true ?_ (hnone fun e' _ hfailed => ?_)
        · simp only [hrecoverable, Bool.false_eq_true, if_false]
        · obtain ⟨⟨⟩, -⟩ := EStateM.Result.error.inj hfailed
          exact hrecoverable
  · exact iff_of_true rfl (hnone fun _ _ h => by cases h)

theorem execute_congr {line line' : Text} (h : Command.parse line = Command.parse line') :
    execute H line = execute H line' := by
  unfold execute
  rw [h]

theorem refusal_congr {line line' : Text} {start : Shell σ} {e : ShellError}
    (h : Command.parse line = Command.parse line') :
    Refusal H line start e ↔ Refusal H line' start e := by
  have hsame : ∀ line, Refusal H line start e ↔ TurnsDown (execute H line) start e start :=
    fun line => ⟨fun hreason => (turnsDown_execute_iff H).mpr ⟨hreason, rfl⟩,
      fun hdown => ((turnsDown_execute_iff H).mp hdown).1⟩
  rw [hsame, hsame, execute_congr h]

/-- **A line and a file that holds it** end the program alike, unless the line is turned down. -/
theorem ending_script {path line : Text} {bytes : List UInt8} {start : Shell σ} {v : τ}
    (S : ScriptFile H K path bytes start.world v) (hsilent : K.SendsNoSignal)
    (hidle : Shell.Idle start)
    (hjobs : start.jobs.jobs = []) (hzero : start.interpreter.status.last.code = 0)
    (hline : '\n' ∉ line)
    (hbytes : bytes = Utf8.encode line ∨ bytes = Utf8.encode line ++ [LineReader.newline]) :
    (outcome (conclude H (executeFile H path)) start).1 =
        (outcome (conclude K (execute K line)) (start.moved v)).1 ↔
      ¬ ∃ e, Refusal K line (start.moved v) e := by
  have hmoved : Shell.Idle (start.moved v) := idle_moved hidle v
  have hsame := endingOf_same (S.executeFile_beside hsilent (heed_of_idle hmoved) hmoved)
  rw [ending_conclude, ending_conclude, hsame]
  rcases LineReader.linesOf_encode hline hbytes with ⟨rfl, hlines⟩ | ⟨line', hlines, hparse⟩
  · -- Nothing is to be done in either case.
    have hnothing : notified K (start.moved v) = start.moved v := notified_of_no_jobs hjobs
    have hrun : execute K [] (start.moved v) = .ok () (start.moved v) := rfl
    rw [hlines, executeLines, hnothing, hrun]
    refine iff_of_true rfl (not_refusal fun _ _ hfailed => ?_)
    rw [hrun] at hfailed
    cases hfailed
  · rw [hlines, ← execute_congr hparse]
    simp only [← refusal_congr hparse]
    exact endingOf_executeLines hjobs hzero

end Single

/-! ## The result -/

/-- **The exit rule, and where it is kept.** The program follows the rule wherever its commands come
from, unless they are a single line and that line is turned down; the log from which the rule is
read is that of the very run.  So if no signal comes, a file that holds just one line, with or
without a newline after it, makes the program exit as the line itself does, unless the line is
turned down. -/
theorem exit_rule_kept_iff (H : Host σ) (terminal : Bool) (pid : UInt32) (signals : SignalState)
    (arguments : List Text) (world : σ) {invocation : Invocation}
    (hread : read arguments = .accepted invocation)
    (hgives : invocation.source.GivesCommands) :
    let start := started H terminal pid signals invocation world
    forgetResult (noted H invocation.source (recorded start)) =
      commands H invocation.source start ∧
    ((run H terminal pid signals arguments world).1 =
        ruled pid (noted H invocation.source (recorded start)) ↔
      ¬ ∃ text e, invocation.source = .line text ∧ Refusal H text start e) ∧
    ∀ (τ : Type) (K : Host τ) (arguments' : List Text) (v : τ) (path line : Text)
        (bytes : List UInt8), invocation.source = .file path →
      read arguments' = .accepted { invocation with source := .line line } →
      '\n' ∉ line → (bytes = Utf8.encode line ∨ bytes = Utf8.encode line ++ [LineReader.newline]) →
      ScriptFile H K path bytes start.world (openLog K invocation.log v) →
      K.SendsNoSignal → Shell.Idle start →
      ((run H terminal pid signals arguments world).1 =
          (run K terminal pid signals arguments' v).1 ↔
        ¬ ∃ e, Refusal K line
          (started K terminal pid signals { invocation with source := .line line } v) e) := by
  intro start
  refine ⟨mirrors_noted H invocation.source (recorded start), ?_, ?_⟩
  · rw [run_eq H hread hgives]
    exact ending_eq_ruled_iff H invocation.source (kept_fresh _ _ _ _)
  · intro τ K arguments' v path line bytes hsource hread' hline hbytes S hsilent hidle
    have hstart : started K terminal pid signals { invocation with source := .line line } v =
        start.moved (openLog K invocation.log v) := by
      simp only [start, started, hsource]
      cases terminal <;> rfl
    rw [run_eq H hread hgives, run_eq K hread' trivial, hsource, hstart]
    exact ending_script S hsilent hidle rfl rfl hline hbytes

/-- A host on which the foreground program exits with code three, and no signal comes. -/
def plainHost : Host SampleWorld :=
  { sampleHost [.exited ⟨7⟩ 3] with arrivals := fun world => ([], world) }

/-- The line can be given, or be in a file: the code is three, by the rule. -/
theorem exit_rule_kept_iff_of_shell :
    let bytes := Utf8.encode ['s', 'h'] ++ [LineReader.newline]
    let H := plainHost.withFile ['f'] (ReadAnswer.chunks bytes)
    let invocation : Invocation := { log := none, maxJobs := 200, source := .file ['f'] }
    let start := started H false 1 {} invocation ({}, [])
    read [['f']] = .accepted invocation ∧
    read [['-', 'c'], ['s', 'h']] = .accepted { invocation with source := .line ['s', 'h'] } ∧
    Nonempty (ScriptFile H plainHost ['f'] bytes start.world (openLog plainHost none {})) ∧
    plainHost.SendsNoSignal ∧ Shell.Idle start ∧
    (run H false 1 {} [['f']] ({}, [])).1 = .exited 3 ∧
    (run plainHost false 1 {} [['-', 'c'], ['s', 'h']] {}).1 = .exited 3 ∧
    ruled 1 (noted H (.file ['f']) (recorded start)) = .exited 3 ∧
    ∀ e, ¬ Refusal plainHost ['s', 'h'] (sampleShell {}) e := by
  intro bytes H invocation start
  have hread : read [['f']] = .accepted invocation := by decide +kernel
  have hread' : read [['-', 'c'], ['s', 'h']] =
      .accepted { invocation with source := .line ['s', 'h'] } := by decide +kernel
  let S : ScriptFile H plainHost ['f'] bytes start.world (openLog plainHost none {}) :=
    ScriptFile.onHost plainHost ['f'] (LineReader.holds_chunks bytes) {}
  have hsilent : plainHost.SendsNoSignal := fun _ => rfl
  have hidle : Shell.Idle start := ⟨rfl, rfl, rfl, fun c => by cases c <;> rfl⟩
  have hfile : (run H false 1 {} [['f']] ({}, [])).1 = .exited 3 := by decide +kernel
  have hgiven : (run plainHost false 1 {} [['-', 'c'], ['s', 'h']] {}).1 = .exited 3 := by
    decide +kernel
  obtain ⟨-, hrule, halike⟩ := exit_rule_kept_iff H false 1 {} [['f']] ({}, []) hread trivial
  have hruled := hrule.mpr fun ⟨_, _, hline, _⟩ => by cases hline
  have hsame := halike SampleWorld plainHost [['-', 'c'], ['s', 'h']] {} ['f'] ['s', 'h'] bytes rfl
    hread'
    (by decide) (.inr rfl) S hsilent hidle
  have hnone := hsame.mp (hfile.trans hgiven.symm)
  exact ⟨hread, hread', ⟨S⟩, hsilent, hidle, hfile, hgiven, hruled.symm.trans hfile,
    fun e hreason => hnone ⟨e, hreason⟩⟩

/-- A single line lacks a path after its redirection.  The shell has done nothing and could go on,
but the program exits with the code of failure. -/
theorem refused_single_line_against_exit_rule :
    (run plainHost false 1 {} ["-c".toList, "cat <".toList] {}).1 = .exited 1 ∧
    ruled 1 (noted plainHost (.line "cat <".toList) (recorded (started plainHost false 1 {}
      { log := none, maxJobs := 200, source := .line "cat <".toList } {}))) = .exited 0 := by
  constructor <;> decide +kernel

end CommandLine

end Conch
