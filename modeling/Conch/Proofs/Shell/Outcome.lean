import Conch.Proofs.Jobs.Texts
import Conch.Proofs.Shell.Foreground
import Conch.Proofs.Shell.Refusal
import Mathlib.Logic.Relation

/-!
# What executing a line comes to

All that a shell does is made of a few kinds of steps.  Most of them are `Quiet`: they are neither
about children nor about jobs, and they leave alone how the last foreground program ended.  What is
not quiet is done in one place only, where a program is launched, and there it is done in a fixed
order: a process is created, and it is either announced and tracked or waited for; the notification
comes last.

So the outcome of a launch is one of six (`launched`), and the outcome of a line is that of a
launch, or it is quiet, or the shell leaves (`executed`).  Nothing is assumed of the host.
-/

namespace Conch.Shell

variable {σ α β : Type} (H : Host σ)

/-- The shell that an action leaves behind, unless the shell has ended. -/
def reached? : EStateM.Result Stop (Shell σ) α → Option (Shell σ)
  | .ok _ sh => some sh
  | .error (.failed _) sh => some sh
  | .error (.ended _) _ => none

/-- An action that has reached a shell has reached the one that it has left. -/
theorem reached?_of_isSome {result : EStateM.Result Stop (Shell σ) α}
    (h : (reached? result).isSome = true) : reached? result = some (left result) := by
  rcases result with ⟨a, sh⟩ | ⟨e | ending, sh⟩
  · rfl
  · rfl
  · exact nomatch h

/-- The shell that an action has reached is the one that it has left. -/
theorem left_of_reached? {result : EStateM.Result Stop (Shell σ) α} {sh : Shell σ}
    (h : reached? result = some sh) : left result = sh := by
  rcases result with ⟨a, last⟩ | ⟨e | ending, last⟩
  · exact Option.some.inj h
  · exact Option.some.inj h
  · exact nomatch h

/-! ## Quiet steps -/

/-- A step that is neither about children nor about jobs, and leaves the status alone. -/
inductive QuietStep (sh : Shell σ) : Shell σ → Prop where
  | signals (signals : SignalState) : QuietStep sh { sh with signals }
  | memory (interpreter : Interpreter) (hstatus : interpreter.status = sh.interpreter.status) :
      QuietStep sh { sh with interpreter }
  | print (text : String) (hother : Job.cut? text = none) :
      QuietStep sh { sh with world := H.print text sh.world }
  | complain (text : String) : QuietStep sh { sh with world := H.printError text sh.world }
  | hear : QuietStep sh { sh with world := (H.arrivals sh.world).2 }
  | dismiss (pid : ProcessId) : QuietStep sh { sh with world := (H.terminate pid sh.world).2 }
  | dismissGroup : QuietStep sh { sh with world := H.terminateGroup sh.world }
  | move (path : Text) {world : σ} (hmove : H.changeDirectory path sh.world = .ok world) :
      QuietStep sh { sh with world }
  | tell (previous current : Text) :
      QuietStep sh { sh with world := H.exportDirectories previous current sh.world }

/-- Any number of such steps. -/
def Quiet : Shell σ → Shell σ → Prop :=
  Relation.ReflTransGen (QuietStep H)

/-- What a shell may do quietly. -/
def quiet : Frame σ where
  Allows := Quiet H
  refl _ := .refl
  trans := .trans

variable {H}

theorem QuietStep.quiet {sh sh' : Shell σ} (h : QuietStep H sh sh') : Quiet H sh sh' :=
  .single h

/-- From a quiet action that comes to its end one gets to the shell by quiet steps. -/
theorem quiet_of_ok {action : Act σ α} (h : (quiet H).Bounds action) {sh sh' : Shell σ} {a : α}
    (hrun : action sh = .ok a sh') : Quiet H sh sh' := by
  have hleft := h sh
  rw [hrun] at hleft
  exact hleft

/-- A quiet action, whether it comes to its end or not. -/
theorem quiet_of_reached {action : Act σ α} (h : (quiet H).Bounds action) {sh sh' : Shell σ}
    (hreached : reached? (action sh) = some sh') : Quiet H sh sh' := by
  have hleft := h sh
  rw [left_of_reached? hreached] at hleft
  exact hleft

variable (H)

/-- To print what is not about a job is quiet. -/
theorem quiet_print {text : String} (hother : Job.cut? text = none) :
    (quiet H).Bounds (print H text) :=
  fun _ => (QuietStep.print text hother).quiet

/-- To report an error is quiet, since that goes to standard error. -/
theorem quiet_report (e : ShellError) : (quiet H).Bounds (report H e) :=
  fun _ => (QuietStep.complain _).quiet

theorem quiet_adjust (f : SignalState → Fate) : (quiet H).Bounds (adjust H f) := by
  intro sh
  change Quiet H sh (left (undergo H (f sh.signals) sh))
  cases f sh.signals with
  | alive signals => exact (QuietStep.signals signals).quiet
  | killed signal announced =>
      cases announced with
      | false => exact (quiet H).refl sh
      | true =>
          have hnotice : Job.cut? SignalState.terminationNotice = none :=
            Job.cut?_eq_none (by decide)
          exact (quiet H).trans (QuietStep.print _ hnotice).quiet QuietStep.dismissGroup.quiet

theorem quiet_receive (number : Int) : (quiet H).Bounds (receive H number) := by
  unfold receive
  cases ControlSignal.ofNumber? number with
  | some signal => exact quiet_adjust H _
  | none =>
      dsimp only
      split
      · exact (quiet H).bounds_pure ()
      · exact (quiet H).bounds_throw _

/-- To take in all signals that have arrived is quiet. -/
theorem quiet_takeSignals : (quiet H).Bounds (takeSignals H) := by
  have hhear : (quiet H).Bounds (request H.arrivals) := fun _ => QuietStep.hear.quiet
  apply (quiet H).bounds_bind hhear
  intro numbers
  exact (quiet H).bounds_forM fun number _ => quiet_receive H number

/-- To change the mode and announce it is quiet, since the announcement is not about a job. -/
theorem quiet_toggleMode : (quiet H).Bounds (toggleMode H) := by
  intro sh
  have htext : Job.cut? (Interpreter.modeText (!sh.interpreter.foregroundOnly) ++ "\n") = none := by
    apply Job.cut?_eq_none
    cases !sh.interpreter.foregroundOnly <;> decide
  let toggled : Shell σ := { sh with
    interpreter := { sh.interpreter with foregroundOnly := !sh.interpreter.foregroundOnly } }
  have htoggled : Quiet H sh toggled := .single (.memory _ rfl)
  have htold : Quiet H toggled (left (toggleMode H sh)) := (QuietStep.print _ htext).quiet
  exact (quiet H).trans htoggled htold

/-- To turn stop signals into changes of the mode is quiet, however many there are. -/
theorem quiet_pollSignals : (quiet H).Bounds (pollSignals H) := by
  intro sh
  have htimes : ∀ n, (quiet H).Bounds (times (toggleMode H) n) := by
    intro n
    induction n with
    | zero => exact (quiet H).bounds_pure ()
    | succ n ih => exact (quiet H).bounds_bind (quiet_toggleMode H) fun _ => ih
  let asked : Shell σ := { sh with signals := sh.signals.takeCaught.2.takeStops.2 }
  let noted : Shell σ := { asked with
    interpreter := { sh.interpreter with
      signalCaught := sh.interpreter.signalCaught || sh.signals.takeCaught.1 } }
  have hasked : Quiet H sh asked := (QuietStep.signals _).quiet
  have hnoted : Quiet H asked noted := .single (.memory _ rfl)
  have htoggled : Quiet H noted (left (pollSignals H sh)) := htimes _ noted
  exact (quiet H).trans hasked ((quiet H).trans hnoted htoggled)

/-- A shell that leaves tells its jobs to end, in the order of the table. -/
theorem leave_eq (code : Option Int) (sh : Shell σ) :
    (leave H code : Act σ α) sh =
      .error (.ended (.exited (code.getD sh.interpreter.status.last.code))) { sh with
        world := sh.jobs.pids.foldl (fun world pid => (H.terminate pid world).2) sh.world } := by
  have hdismiss : ∀ (pids : List ProcessId) (sh : Shell σ),
      (pids.forM fun pid => do let _ ← request (H.terminate pid) : Act σ PUnit) sh =
        .ok () { sh with
          world := pids.foldl (fun world pid => (H.terminate pid world).2) sh.world } := by
    intro pids
    induction pids with
    | nil => intro sh; rfl
    | cons pid pids ih =>
        intro sh
        exact ih { sh with world := (H.terminate pid sh.world).2 }
  have hlook : (get : Act σ (Shell σ)) sh = .ok sh sh := rfl
  rw [leave, bind_of_ok hlook, bind_of_ok (hdismiss _ _)]
  rfl

/-- To leave is quiet in this sense: the jobs are told to end, but stay in the table. -/
theorem quiet_leave (code : Option Int) : (quiet H).Bounds (leave H code : Act σ α) := by
  intro sh
  have hdismiss : ∀ (pids : List ProcessId) (sh : Shell σ), Quiet H sh { sh with
      world := pids.foldl (fun world pid => (H.terminate pid world).2) sh.world } := by
    intro pids
    induction pids with
    | nil => exact (quiet H).refl
    | cons pid pids ih =>
        intro sh
        have hfirst : Quiet H sh { sh with world := (H.terminate pid sh.world).2 } :=
          (QuietStep.dismiss pid).quiet
        exact (quiet H).trans hfirst (ih _)
  rw [leave_eq]
  exact hdismiss _ sh

/-- A change of the directory is quiet, or nothing has happened. -/
theorem runChangeDirectory_cases (arguments : List Word) (sh : Shell σ) :
    (∃ sh', runChangeDirectory H arguments sh = .ok () sh' ∧ Quiet H sh sh') ∨
    ∃ e, runChangeDirectory H arguments sh = .error (.failed e) sh := by
  have hlook : (get : Act σ (Shell σ)) sh = .ok sh sh := rfl
  unfold runChangeDirectory
  by_cases hmany : 1 < arguments.length
  · rw [if_pos hmany]
    exact .inr ⟨_, rfl⟩
  rw [if_neg hmany]
  cases Builtin.directoryUsage.fit arguments with
  | error fault => exact .inr ⟨_, rfl⟩
  | ok matched =>
      dsimp only
      rw [bind_of_ok hlook]
      cases H.workingDirectory sh.world with
      | error reason => exact .inr ⟨_, rfl⟩
      | ok here =>
          dsimp only
          cases directoryTarget (matched.positional? "<dir>") here (H.home sh.world) with
          | none => exact .inr ⟨_, rfl⟩
          | some target =>
              dsimp only
              cases hmove : H.changeDirectory target sh.world with
              | error reason => exact .inr ⟨_, rfl⟩
              | ok world =>
                  have hmoved : Quiet H sh { sh with world } := (QuietStep.move target hmove).quiet
                  exact .inl ⟨_, rfl, (quiet H).trans hmoved (QuietStep.tell here target).quiet⟩

/-! ## Guarded actions -/

section Guarded

variable {sh sh' : Shell σ} {action : Act σ α}

/-- Under a guard everything is blocked and signals are taken in, which is quiet. -/
theorem quiet_begun {begun : Shell σ}
    (h : takeSignals H { sh with signals := sh.signals.block } = .ok () begun) :
    Quiet H sh begun :=
  (quiet H).trans (QuietStep.signals sh.signals.block).quiet (quiet_of_ok (quiet_takeSignals H) h)

/-- To take in signals and put the mask back, at the end of a guard, is quiet. -/
theorem quiet_released {done last : Shell σ} {mask : PerSignal Bool}
    (hlater : takeSignals H done = .ok () last)
    (hadjust : adjust H (·.setBlocked mask) last = .ok () sh') : Quiet H done sh' :=
  (quiet H).trans (quiet_of_ok (quiet_takeSignals H) hlater)
    (quiet_of_ok (quiet_adjust H _) hadjust)

/-- What always comes to its end is not cut short at all. -/
theorem onlyKills_of_ok (h : ∀ sh, ∃ a sh', action sh = .ok a sh') : OnlyKills action := by
  intro sh stop sh' hstop
  obtain ⟨a, done, hok⟩ := h sh
  rw [hok] at hstop
  cases hstop

/-- If nothing but a signal cuts the action short, nothing but a signal cuts it short under a
guard. -/
theorem onlyKills_guarded (h : OnlyKills action) : OnlyKills (guarded H action) := by
  refine onlyKills_bind (onlyKills_of_ok fun sh => ⟨_, _, rfl⟩) fun before => ?_
  refine onlyKills_bind (onlyKills_modify _) fun _ => ?_
  refine onlyKills_bind (onlyKills_takeSignals H) fun _ => ?_
  refine onlyKills_bind h fun a => ?_
  refine onlyKills_bind (onlyKills_takeSignals H) fun _ => ?_
  refine onlyKills_bind (onlyKills_adjust H _) fun _ => ?_
  exact onlyKills_of_ok fun sh => ⟨_, _, rfl⟩

end Guarded

/-- A process has been asked for, and nothing else has happened but quiet steps. -/
def Forks (command : Command) (sh : Shell σ) (created : Option ProcessId) (sh' : Shell σ) : Prop :=
  ∃ launch begun, launch.command = command ∧ Quiet H sh begun ∧
    (H.fork launch begun.world).1 = created ∧
    Quiet H { begun with world := (H.fork launch begun.world).2 } sh'

/-- A child has been waited for, and nothing else has happened but quiet steps. -/
def Waits (pid : ProcessId) (sh : Shell σ) (answers : List WaitAnswer) (sh' : Shell σ) : Prop :=
  ∃ begun, Quiet H sh begun ∧ (H.wait pid begun.world).1 = answers ∧
    Quiet H { begun with world := (H.wait pid begun.world).2 } sh'

/-- **The creation of a process asks for one once**, and all that it does besides is quiet. -/
theorem forks_of_create {command : Command} {created : Option ProcessId} {sh sh' : Shell σ}
    (h : create H command sh = .ok created sh') : Forks H command sh created sh' := by
  obtain ⟨begun, ready, drained, last, hbegun, hready, hfork, hdrained, hlast, hadjust⟩ :=
    of_create_eq_ok H h
  have harmed : Quiet H begun { begun with
      signals := begun.signals.install (.child command.background) } :=
    (QuietStep.signals _).quiet
  have hready := quiet_of_ok (quiet_takeSignals H) hready
  have hdrained := quiet_of_ok (quiet_takeSignals H) hdrained
  have hback : Quiet H drained { drained with signals := drained.signals.install .interactive } :=
    (QuietStep.signals _).quiet
  have hafter := (quiet H).trans hback (quiet_released H hlast hadjust)
  exact ⟨_, ready, rfl, (quiet H).trans (quiet_begun H hbegun) ((quiet H).trans harmed hready),
    hfork, (quiet H).trans hdrained hafter⟩

/-- The creation of a process is cut short only by a signal that kills the shell. -/
theorem onlyKills_create (command : Command) : OnlyKills (create H command) := by
  apply onlyKills_guarded
  refine onlyKills_bind (onlyKills_modify _) fun _ => ?_
  refine onlyKills_bind (onlyKills_takeSignals H) fun _ => ?_
  refine onlyKills_bind (onlyKills_of_ok fun sh => ⟨_, _, rfl⟩) fun asked => ?_
  refine onlyKills_bind (onlyKills_of_ok fun sh => ⟨_, _, rfl⟩) fun pid => ?_
  refine onlyKills_bind (onlyKills_takeSignals H) fun _ => ?_
  refine onlyKills_bind (onlyKills_modify _) fun _ => ?_
  exact onlyKills_of_ok fun sh => ⟨_, _, rfl⟩

/-- To wait under a guard asks for the answers once, and all that it does besides is quiet. -/
theorem waits_of_guarded {pid : ProcessId} {answers : List WaitAnswer} {sh sh' : Shell σ}
    (h : guarded H (request (H.wait pid)) sh = .ok answers sh') : Waits H pid sh answers sh' := by
  obtain ⟨begun, done, last, hbegun, hrun, hlast, hadjust⟩ := of_guarded_eq_ok H h
  obtain ⟨rfl, rfl⟩ := EStateM.Result.ok.inj hrun
  exact ⟨begun, quiet_begun H hbegun, rfl, quiet_released H hlast hadjust⟩

/-! ## Launches -/

/-- What a launch can come to.  It is turned down, or there is no process.  A process in the
background is announced and tracked, and one in the foreground is waited for: it has ended, or
waiting for it has failed.  Or the shell has ended meanwhile, but it has not left. -/
inductive Launched (command : Command) (sh : Shell σ) :
    EStateM.Result Stop (Shell σ) Unit → Prop where
  | refused {e : ShellError} (hreason : LaunchRefusal command sh e) :
      Launched command sh (.error (.failed e) sh)
  | unborn {forked : Shell σ} (hfork : Forks H command sh none forked) :
      Launched command sh (.error (.failed .forkFailed) forked)
  | behind {pid : ProcessId} {forked : Shell σ} {jobs : JobTable}
      (hbackground : command.background = true) (hfork : Forks H command sh (some pid) forked)
      (hregister : forked.jobs.register? pid = some jobs) :
      Launched command sh (.ok () (notified H { forked with
        jobs
        world := H.print (Job.begunText pid ++ "\n") forked.world }))
  | inFront {pid : ProcessId} {forked waited : Shell σ} {answers : List WaitAnswer}
      {cause : Completion} (hfront : command.background = false)
      (hfit : unfitWord? command.argv = none)
      (hfork : Forks H command sh (some pid) forked) (hwait : Waits H pid forked answers waited)
      (hcause : conclusion? answers = some (.ok cause)) :
      Launched command sh (.ok () (notified H (concluded H cause waited)))
  | abandoned {pid : ProcessId} {forked waited : Shell σ} {answers : List WaitAnswer}
      {errno : Errno} (hfront : command.background = false)
      (hfork : Forks H command sh (some pid) forked) (hwait : Waits H pid forked answers waited)
      (herrno : conclusion? answers = some (.error errno)) :
      Launched command sh (.error (.failed (.system errno)) waited)
  | ended {ending : Ending} {sh' : Shell σ} (hstays : ∀ code, ending ≠ .exited code) :
      Launched command sh (.error (.ended ending) sh')

variable {H}

/-- If a part of a launch is cut short by a signal that kills the shell, the launch has ended like
this. -/
theorem launched_of_onlyKills {action : Act σ α} {command : Command} {sh mid sh' : Shell σ}
    {stop : Stop} (h : OnlyKills action) (hrun : action mid = .error stop sh') :
    Launched H command sh (.error stop sh') := by
  obtain ⟨number, rfl⟩ := h mid stop sh' hrun
  exact .ended fun code hsame => by cases hsame

variable (H)

/-- Once its process has been created, a foreground program is waited for. -/
theorem launched_inFront {command : Command} {sh forked : Shell σ} {pid : ProcessId}
    (hfront : command.background = false) (hfit : unfitWord? command.argv = none)
    (hfork : Forks H command sh (some pid) forked) :
    Launched H command sh ((do waitFor H pid; notify H) forked) := by
  rcases hwait : guarded H (request (H.wait pid)) forked with ⟨answers, waited⟩ | ⟨stop, sh'⟩
  · have hwaits := waits_of_guarded H hwait
    rcases hconclusion : conclusion? answers with _ | errno | cause
    · have hstuck : waitFor H pid forked = .error (.ended .stuck) waited := by
        rw [waitFor, bind_of_ok hwait, hconclusion]
        rfl
      rw [bind_of_error hstuck]
      exact .ended fun code hsame => by cases hsame
    · have hfailed : waitFor H pid forked = .error (.failed (.system errno)) waited := by
        rw [waitFor, bind_of_ok hwait, hconclusion]
        rfl
      rw [bind_of_error hfailed]
      exact .abandoned hfront hfork hwaits hconclusion
    · have hdone : waitFor H pid forked = .ok () (concluded H cause waited) := by
        rw [waitFor, bind_of_ok hwait, hconclusion]
        cases cause <;> rfl
      rw [bind_of_ok hdone, notify_eq]
      exact .inFront hfront hfit hfork hwaits hconclusion
  · have hcut : waitFor H pid forked = .error stop sh' := by rw [waitFor, bind_of_error hwait]
    have hkills : OnlyKills (guarded H (request (H.wait pid))) :=
      onlyKills_guarded H (onlyKills_of_ok fun sh => ⟨_, _, rfl⟩)
    rw [bind_of_error hcut]
    exact launched_of_onlyKills hkills hwait

/-- **The outcomes of a launch** are these and no others, whatever the host answers. -/
theorem launched (command : Command) (sh : Shell σ) :
    Launched H command sh (launch H command sh) := by
  have hlook : (get : Act σ (Shell σ)) sh = .ok sh sh := rfl
  by_cases hfull : (command.background && !sh.jobs.hasCapacity) = true
  · have hrefused : launch H command sh = .error (.failed (.jobLimit sh.jobs.capacity)) sh := by
      rw [launch, bind_of_ok hlook, if_pos hfull]
      rfl
    rw [Bool.and_eq_true, Bool.not_eq_true'] at hfull
    rw [hrefused]
    exact .refused (.full hfull.1 hfull.2)
  cases hword : unfitWord? command.argv with
  | some word =>
      have hrefused : launch H command sh = .error (.failed (.malformed (.nulInWord word))) sh := by
        rw [launch, bind_of_ok hlook, if_neg hfull, hword]
        rfl
      rw [hrefused]
      exact .refused (.unfit hfull hword)
  | none =>
      rw [launch_eq_start H hfull hword, start]
      rcases hcreate : create H command sh with ⟨created, forked⟩ | ⟨stop, sh'⟩
      · have hfork := forks_of_create H hcreate
        rw [bind_of_ok hcreate]
        cases created with
        | none => exact .unborn hfork
        | some pid =>
            dsimp only
            cases hbackground : command.background with
            | false => exact launched_inFront H hbackground hword hfork
            | true =>
                have hroom : sh.jobs.hasCapacity = true := by simpa [hbackground] using hfull
                obtain ⟨jobs, hregister⟩ := register?_of_create H hroom hcreate
                rw [if_pos rfl, bind_of_ok (track_of_register? H hregister), notify_eq]
                exact .behind hbackground hfork hregister
      · rw [bind_of_error hcreate]
        exact launched_of_onlyKills (onlyKills_create H command) hcreate

/-! ## Lines -/

/-- What executing a line can come to: no program is run, and nothing but quiet steps has happened,
or the shell leaves, or a program is run. -/
inductive Executed (line : Text) (sh : Shell σ) : EStateM.Result Stop (Shell σ) Unit → Prop where
  | quietly {result : EStateM.Result Stop (Shell σ) Unit} {sh' : Shell σ}
      (hplain : ∀ command, reading line sh = .ok (some command) →
        Builtin.ofName? command.program ≠ none ∧ Builtin.ofName? command.program ≠ some .exit)
      (hreached : reached? result = some sh') (hquiet : Quiet H sh sh') : Executed line sh result
  | leaves {command : Command} {sh' : Shell σ} (hparse : reading line sh = .ok (some command))
      (hname : Builtin.ofName? command.program = some .exit) :
      Executed line sh (.error (.ended (.exited 0)) sh')
  | launches {command : Command} {result : EStateM.Result Stop (Shell σ) Unit}
      (hparse : reading line sh = .ok (some command))
      (hname : Builtin.ofName? command.program = none) (hlaunch : Launched H command sh result) :
      Executed line sh result

section Lines

variable {line : Text} {sh : Shell σ} {command : Command}

/-- A line is run as the command that it is to the shell. -/
theorem execute_eq_run (hparse : reading line sh = .ok (some command)) :
    execute H line sh = run H command sh := by
  have hlook : (get : Act σ (Shell σ)) sh = .ok sh sh := rfl
  have hread : Command.parse line sh.pid (!sh.interpreter.foregroundOnly) = .ok (some command) :=
    hparse
  rw [execute, bind_of_ok hlook, hread]

/-- The command that asks for the status prints what is remembered of the last foreground
command. -/
theorem execute_status (hparse : reading line sh = .ok (some command))
    (hname : Builtin.ofName? command.program = some .status) :
    execute H line sh = .ok () { sh with
      world := H.print (sh.interpreter.status.text ++ "\n") sh.world } := by
  rw [execute_eq_run H hparse, run, hname]
  rfl

/-- The command that leaves the shell leaves it with code zero. -/
theorem execute_exit (hparse : reading line sh = .ok (some command))
    (hname : Builtin.ofName? command.program = some .exit) :
    execute H line sh = leave H (some 0) sh := by
  rw [execute_eq_run H hparse, run, hname]
  exact congrFun (leave_bind H (some 0) _) sh

/-- A line that is read as a command, and is none of the shell's own, launches the program. -/
theorem execute_launch (hparse : reading line sh = .ok (some command))
    (hname : Builtin.ofName? command.program = none) :
    execute H line sh = launch H command sh := by
  rw [execute_eq_run H hparse, run, hname]

/-- The command that changes the directory does so and prints nothing. -/
theorem run_changeDirectory (hname : Builtin.ofName? command.program = some .changeDirectory) :
    run H command = runChangeDirectory H command.arguments >>= fun _ => print H "" := by
  rw [run, hname]
  dsimp only [runBuiltin]
  rw [bind_assoc]
  exact bind_congr fun _ => pure_bind _ _

/-- A line that changes the directory is executed quietly, whether the change is possible or not. -/
theorem execute_changeDirectory (hparse : reading line sh = .ok (some command))
    (hname : Builtin.ofName? command.program = some .changeDirectory) :
    ∃ sh', reached? (execute H line sh) = some sh' ∧ Quiet H sh sh' := by
  rw [execute_eq_run H hparse, run_changeDirectory H hname]
  rcases runChangeDirectory_cases H command.arguments sh with ⟨moved, hrun, hquiet⟩ | ⟨e, hrun⟩
  · have hnothing : Job.cut? "" = none := Job.cut?_eq_none (by decide)
    rw [bind_of_ok hrun]
    exact ⟨_, rfl, (quiet H).trans hquiet (quiet_print H hnothing moved)⟩
  · rw [bind_of_error hrun]
    exact ⟨sh, rfl, (quiet H).refl sh⟩

/-- **The outcomes of a line** are these and no others, whatever the host answers. -/
theorem executed (line : Text) (sh : Shell σ) : Executed H line sh (execute H line sh) := by
  have hlook : (get : Act σ (Shell σ)) sh = .ok sh sh := rfl
  have hnone : (∀ command, reading line sh ≠ .ok (some command)) →
      ∀ command, reading line sh = .ok (some command) →
        Builtin.ofName? command.program ≠ none ∧ Builtin.ofName? command.program ≠ some .exit :=
    fun h command hsome => absurd hsome (h command)
  rcases hparse : reading line sh with fault | _ | command
  · have hread : Command.parse line sh.pid (!sh.interpreter.foregroundOnly) = .error fault := hparse
    have hfault : execute H line sh = .error (.failed (.malformed fault)) sh := by
      rw [execute, bind_of_ok hlook, hread]
      rfl
    rw [hfault]
    exact .quietly (hnone fun command => by simp [hparse]) rfl ((quiet H).refl sh)
  · have hread : Command.parse line sh.pid (!sh.interpreter.foregroundOnly) = .ok none := hparse
    have hidle : execute H line sh = .ok () sh := by
      rw [execute, bind_of_ok hlook, hread]
      rfl
    rw [hidle]
    exact .quietly (hnone fun command => by simp [hparse]) rfl ((quiet H).refl sh)
  · cases hname : Builtin.ofName? command.program with
    | none =>
        rw [execute_launch H hparse hname]
        exact .launches hparse hname (launched H command sh)
    | some builtin =>
        have hplain : builtin ≠ .exit → ∀ other, reading line sh = .ok (some other) →
            Builtin.ofName? other.program ≠ none ∧ Builtin.ofName? other.program ≠ some .exit := by
          intro hexit other hother
          rw [hparse] at hother
          cases hother
          simp [hname, hexit]
        cases builtin with
        | changeDirectory =>
            obtain ⟨sh', hreached, hquiet⟩ := execute_changeDirectory H hparse hname
            exact .quietly (hplain (by decide)) hreached hquiet
        | exit =>
            rw [execute_exit H hparse hname, leave_eq]
            exact .leaves hparse hname
        | status =>
            have hother : Job.cut? (sh.interpreter.status.text ++ "\n") = none :=
              Completion.cut?_text _
            rw [execute_status H hparse hname]
            exact .quietly (hplain (by decide)) rfl (QuietStep.print _ hother).quiet

end Lines

end Conch.Shell
