import Conch.Proofs.Shell.Recording

/-!
# Lines that are turned down

A fault of the user is reported and the shell goes on.  Whatever such a line was about, it has left
no trace: the shell is the one it was, its world included, and no service of the host was used.  The
reasons for turning a line down can all be told from the shell before it (`Refusal`), and there are
no others (`turnsDown_execute_iff`).

What makes this true of programs is that nothing that is done once a process exists fails in a way
the shell would go on after (`Firm`).  Signals kill or do nothing, waiting fails for good, and the
room for one more job, which was looked for before the process was created, is still there
afterwards (`register?_of_create`): creating a process leaves the table of jobs alone.

* `turnsDown_runChangeDirectory_iff`, `turnsDown_launch_iff`: the two ways on from a line that is a
  command;
* `refused_without_trace`: the result.
-/

namespace Conch.Shell

variable {σ α β : Type}

/-- The action fails in a way that the shell goes on after. -/
def TurnsDown (action : Act σ α) (sh : Shell σ) (e : ShellError) (sh' : Shell σ) : Prop :=
  action sh = .error (.failed e) sh' ∧ e.isRecoverable = true

/-! ## What can be done without turning anything down -/

/-- The action fails for good if it fails, and it leaves the table of jobs alone if it comes to its
end. -/
def Firm (action : Act σ α) : Prop :=
  ∀ sh, match action sh with
    | .ok _ sh' => sh'.jobs = sh.jobs
    | .error (.failed e) _ => e.isRecoverable = false
    | .error (.ended _) _ => True

variable {sh sh' : Shell σ} {e : ShellError}

/-- What is firm turns nothing down, since its failures cannot be mended. -/
theorem Firm.not_turnsDown {action : Act σ α} (h : Firm action) : ¬ TurnsDown action sh e sh' := by
  rintro ⟨hrun, hrecoverable⟩
  have hfails := h sh
  rw [hrun] at hfails
  rw [hfails] at hrecoverable
  exact nomatch hrecoverable

/-- What is firm leaves the table of jobs as it is. -/
theorem Firm.jobs_eq {action : Act σ α} (h : Firm action) {a : α}
    (hrun : action sh = .ok a sh') : sh'.jobs = sh.jobs := by
  have hends := h sh
  rw [hrun] at hends
  exact hends

theorem firm_pure (a : α) : Firm (pure a : Act σ α) :=
  fun _ => rfl

theorem firm_get : Firm (get : Act σ (Shell σ)) :=
  fun _ => rfl

theorem firm_modify {f : Shell σ → Shell σ} (h : ∀ sh, (f sh).jobs = sh.jobs) : Firm (modify f) :=
  h

theorem firm_request (f : σ → α × σ) : Firm (request f) :=
  fun _ => rfl

theorem firm_finish (ending : Ending) : Firm (finish ending : Act σ α) :=
  fun _ => trivial

theorem firm_fail (h : e.isRecoverable = false) : Firm (fail e : Act σ α) :=
  fun _ => h

theorem firm_bind {action : Act σ α} {rest : α → Act σ β} (h : Firm action)
    (hrest : ∀ a, Firm (rest a)) : Firm (action >>= rest) := by
  intro sh
  have hfirst := h sh
  rcases hrun : action sh with ⟨a, mid⟩ | ⟨stop, mid⟩
  · have hthen := hrest a mid
    rw [h.jobs_eq hrun] at hthen
    rw [bind_of_ok hrun]
    exact hthen
  · rw [hrun] at hfirst
    rw [bind_of_error hrun]
    cases stop with
    | failed e => exact hfirst
    | ended ending => exact trivial

theorem firm_forM {items : List α} {action : α → Act σ PUnit} (h : ∀ item, Firm (action item)) :
    Firm (items.forM action) := by
  induction items with
  | nil => exact firm_pure _
  | cons item items ih => exact firm_bind (h item) fun _ => ih

variable (H : Host σ)

theorem firm_print (text : String) : Firm (print H text) :=
  firm_modify fun _ => rfl

theorem firm_adjust (f : SignalState → Fate) : Firm (adjust H f) := by
  refine firm_bind firm_get fun sh => ?_
  cases f sh.signals with
  | alive signals => exact firm_modify fun _ => rfl
  | killed signal announced =>
      cases announced with
      | false => exact firm_finish _
      | true =>
          refine firm_bind (firm_print H _) fun _ => ?_
          exact firm_bind (firm_modify fun _ => rfl) fun _ => firm_finish _

theorem firm_takeSignals : Firm (takeSignals H) := by
  refine firm_bind (firm_request _) fun _ => firm_forM fun number => ?_
  unfold receive
  cases ControlSignal.ofNumber? number with
  | some signal => exact firm_adjust H _
  | none =>
      dsimp only
      split
      · exact firm_pure ()
      · exact firm_finish _

theorem firm_guarded {action : Act σ α} (h : Firm action) : Firm (guarded H action) := by
  refine firm_bind firm_get fun sh => ?_
  refine firm_bind (firm_modify fun _ => rfl) fun _ => ?_
  refine firm_bind (firm_takeSignals H) fun _ => ?_
  refine firm_bind h fun a => ?_
  refine firm_bind (firm_takeSignals H) fun _ => ?_
  refine firm_bind (firm_adjust H _) fun _ => ?_
  exact firm_pure a

/-- The creation of a process is firm: if there is none, that cannot be mended. -/
theorem firm_create (command : Command) : Firm (create H command) := by
  apply firm_guarded
  refine firm_bind (firm_modify fun _ => rfl) fun _ => ?_
  refine firm_bind (firm_takeSignals H) fun _ => ?_
  refine firm_bind firm_get fun sh => ?_
  refine firm_bind (firm_request _) fun pid => ?_
  refine firm_bind (firm_takeSignals H) fun _ => ?_
  refine firm_bind (firm_modify fun _ => rfl) fun _ => ?_
  exact firm_pure pid

/-- To wait for a program is firm: an error of the system cannot be mended, and no job is
touched. -/
theorem firm_waitFor (pid : ProcessId) : Firm (waitFor H pid) := by
  refine firm_bind (firm_guarded H (firm_request _)) fun answers => ?_
  rcases conclusion? answers with _ | errno | cause
  · exact firm_finish _
  · exact firm_fail rfl
  · refine firm_bind (firm_modify fun _ => rfl) fun _ => ?_
    cases cause with
    | exited code => exact firm_pure ()
    | killed signal => exact firm_print H _

theorem firm_leave (code : Option Int) : Firm (leave H code : Act σ α) := by
  refine firm_bind firm_get fun sh => ?_
  refine firm_bind (firm_forM fun pid => ?_) fun _ => firm_bind firm_get fun _ => firm_finish _
  exact firm_bind (firm_request _) fun _ => firm_pure _

/-- What never turns anything down may follow: it is the first part that does. -/
theorem turnsDown_bind_iff {action : Act σ α} {rest : α → Act σ β} (hrest : ∀ a, Firm (rest a)) :
    TurnsDown (action >>= rest) sh e sh' ↔ TurnsDown action sh e sh' := by
  constructor
  · rintro ⟨hrun, hrecoverable⟩
    rcases of_bind_eq_error hrun with hfirst | ⟨a, mid, -, hthen⟩
    · exact ⟨hfirst, hrecoverable⟩
    · exact absurd ⟨hthen, hrecoverable⟩ (hrest a).not_turnsDown
  · rintro ⟨hrun, hrecoverable⟩
    exact ⟨bind_of_error hrun, hrecoverable⟩

/-! ## Room for a job -/

/-- If there was room for a job before its process was created, there still is. -/
theorem register?_of_create {command : Command} {pid : ProcessId}
    (hroom : sh.jobs.hasCapacity = true) (hcreate : create H command sh = .ok (some pid) sh') :
    ∃ table, sh'.jobs.register? pid = some table := by
  rw [(firm_create H command).jobs_eq hcreate]
  rcases sh.jobs.register?_cases pid with ⟨hfull, -⟩ | ⟨-, -, hsame⟩ | ⟨-, -, hnew⟩
  · rw [hroom] at hfull
    exact nomatch hfull
  · exact ⟨_, hsame⟩
  · exact ⟨_, hnew⟩

/-- Where the table accepts a process, it is tracked and announced, and nothing fails. -/
theorem track_of_register? {pid : ProcessId} {table : JobTable}
    (hregister : sh.jobs.register? pid = some table) :
    track H pid sh = .ok () { sh with
      jobs := table
      world := H.print (Job.begunText pid ++ "\n") sh.world } := by
  let told : Shell σ := { sh with world := H.print (Job.begunText pid ++ "\n") sh.world }
  have hprint : print H (Job.begunText pid ++ "\n") sh = .ok () told := rfl
  have hlook : (get : Act σ (Shell σ)) told = .ok told told := rfl
  have htold : told.jobs.register? pid = some table := hregister
  rw [track, bind_of_ok hprint, bind_of_ok hlook, htold]
  rfl

/-! ## Reasons -/

/-- Why the command that changes the directory is turned down: it is given more than one argument,
or one that does not fit its usage, it is to go home and there is no home, or it cannot go there. -/
inductive DirectoryRefusal (arguments : List Word) (world : σ) : ShellError → Prop where
  | tooMany (hmany : 1 < arguments.length) :
      DirectoryRefusal arguments world (.builtin "cd: too many arguments" 1)
  | misused {fault : UsageFault} (hfew : ¬ 1 < arguments.length)
      (hfit : Builtin.directoryUsage.fit arguments = .error fault) :
      DirectoryRefusal arguments world (.usage (Builtin.directoryUsage.report fault))
  | homeless {matched : Matched} {here : Text} (hfew : ¬ 1 < arguments.length)
      (hfit : Builtin.directoryUsage.fit arguments = .ok matched)
      (hhere : H.workingDirectory world = .ok here)
      (htarget : directoryTarget (matched.positional? "<dir>") here (H.home world) = none) :
      DirectoryRefusal arguments world (.builtin "cd: HOME not set" 1)
  | unreachable {matched : Matched} {here target : Text} {reason : IoError}
      (hfew : ¬ 1 < arguments.length)
      (hfit : Builtin.directoryUsage.fit arguments = .ok matched)
      (hhere : H.workingDirectory world = .ok here)
      (htarget : directoryTarget (matched.positional? "<dir>") here (H.home world) = some target)
      (hmove : H.changeDirectory target world = .error reason) :
      DirectoryRefusal arguments world
        (.builtin s!"cd: {String.ofList target}: {reason.message}" 1)

/-- Why a program is not run: there is no room for one more background job, or one of its words
cannot be handed to it. -/
inductive LaunchRefusal (command : Command) (sh : Shell σ) : ShellError → Prop where
  | full (hbackground : command.background = true) (hfull : sh.jobs.hasCapacity = false) :
      LaunchRefusal command sh (.jobLimit sh.jobs.capacity)
  | unfit {word : Word} (hroom : ¬ (command.background && !sh.jobs.hasCapacity) = true)
      (hword : unfitWord? command.argv = some word) :
      LaunchRefusal command sh (.malformed (.nulInWord word))

/-- What the line is, to the shell. -/
def reading (line : Text) (sh : Shell σ) : Except SyntaxFault (Option Command) :=
  Command.parse line sh.pid (!sh.interpreter.foregroundOnly)

/-- Why a line is turned down: it is no command, or what it would do is turned down, which is to
change the directory or to run a program. -/
inductive Refusal (line : Text) (sh : Shell σ) : ShellError → Prop where
  | malformed {fault : SyntaxFault} (hparse : reading line sh = .error fault) :
      Refusal line sh (.malformed fault)
  | directory {command : Command} {e : ShellError} (hparse : reading line sh = .ok (some command))
      (hname : Builtin.ofName? command.program = some .changeDirectory)
      (hreason : DirectoryRefusal H command.arguments sh.world e) : Refusal line sh e
  | launch {command : Command} {e : ShellError} (hparse : reading line sh = .ok (some command))
      (hname : Builtin.ofName? command.program = none)
      (hreason : LaunchRefusal command sh e) : Refusal line sh e

/-- An action that looks at the shell goes on from where it looked. -/
theorem turnsDown_get_bind_iff {rest : Shell σ → Act σ β} :
    TurnsDown (get >>= rest) sh e sh' ↔ TurnsDown (rest sh) sh e sh' :=
  Iff.rfl

/-- To fail turns something down exactly if the error can be mended, and the shell stays as it
is. -/
theorem turnsDown_fail {error : ShellError} :
    TurnsDown (fail error : Act σ α) sh e sh' ↔
      (e = error ∧ error.isRecoverable = true) ∧ sh' = sh := by
  constructor
  · rintro ⟨hrun, hrecoverable⟩
    obtain ⟨⟨⟩, rfl⟩ := EStateM.Result.error.inj hrun
    exact ⟨⟨rfl, hrecoverable⟩, rfl⟩
  · rintro ⟨⟨rfl, hrecoverable⟩, rfl⟩
    exact ⟨rfl, hrecoverable⟩

/-- Each of the reasons is enough for the command that changes the directory to be turned down, and
then nothing has been done. -/
theorem turnsDown_of_directoryRefusal {arguments : List Word}
    (hreason : DirectoryRefusal H arguments sh.world e) :
    TurnsDown (runChangeDirectory H arguments) sh e sh := by
  unfold runChangeDirectory
  cases hreason with
  | tooMany hmany =>
      rw [if_pos hmany]
      exact turnsDown_fail.mpr ⟨⟨rfl, rfl⟩, rfl⟩
  | misused hfew hfit =>
      rw [if_neg hfew, hfit]
      exact turnsDown_fail.mpr ⟨⟨rfl, rfl⟩, rfl⟩
  | homeless hfew hfit hhere htarget =>
      rw [if_neg hfew, hfit]
      refine turnsDown_get_bind_iff.mpr ?_
      dsimp only
      rw [hhere]
      dsimp only
      rw [htarget]
      exact turnsDown_fail.mpr ⟨⟨rfl, rfl⟩, rfl⟩
  | unreachable hfew hfit hhere htarget hmove =>
      rw [if_neg hfew, hfit]
      refine turnsDown_get_bind_iff.mpr ?_
      dsimp only
      rw [hhere]
      dsimp only
      rw [htarget]
      dsimp only
      rw [hmove]
      exact turnsDown_fail.mpr ⟨⟨rfl, rfl⟩, rfl⟩

/-- Without one the directory is changed, or the failure is none to go on after. -/
theorem turnsDown_runChangeDirectory_iff {arguments : List Word} :
    TurnsDown (runChangeDirectory H arguments) sh e sh' ↔
      DirectoryRefusal H arguments sh.world e ∧ sh' = sh := by
  constructor
  · intro hdown
    unfold runChangeDirectory at hdown
    by_cases hmany : 1 < arguments.length
    · rw [if_pos hmany] at hdown
      obtain ⟨⟨rfl, -⟩, rfl⟩ := turnsDown_fail.mp hdown
      exact ⟨.tooMany hmany, rfl⟩
    rw [if_neg hmany] at hdown
    cases hfit : Builtin.directoryUsage.fit arguments with
    | error fault =>
        rw [hfit] at hdown
        obtain ⟨⟨rfl, -⟩, rfl⟩ := turnsDown_fail.mp hdown
        exact ⟨.misused hmany hfit, rfl⟩
    | ok matched =>
        rw [hfit] at hdown
        replace hdown := turnsDown_get_bind_iff.mp hdown
        dsimp only at hdown
        cases hhere : H.workingDirectory sh.world with
        | error reason =>
            rw [hhere] at hdown
            exact absurd hdown (firm_fail rfl).not_turnsDown
        | ok here =>
            rw [hhere] at hdown
            dsimp only at hdown
            cases htarget : directoryTarget (matched.positional? "<dir>") here
                (H.home sh.world) with
            | none =>
                rw [htarget] at hdown
                obtain ⟨⟨rfl, -⟩, rfl⟩ := turnsDown_fail.mp hdown
                exact ⟨.homeless hmany hfit hhere htarget, rfl⟩
            | some target =>
                rw [htarget] at hdown
                dsimp only at hdown
                cases hmove : H.changeDirectory target sh.world with
                | error reason =>
                    rw [hmove] at hdown
                    obtain ⟨⟨rfl, -⟩, rfl⟩ := turnsDown_fail.mp hdown
                    exact ⟨.unreachable hmany hfit hhere htarget hmove, rfl⟩
                | ok world =>
                    rw [hmove] at hdown
                    exact absurd hdown (firm_modify fun _ => rfl).not_turnsDown
  · rintro ⟨hreason, rfl⟩
    exact turnsDown_of_directoryRefusal H hreason

/-! ## Programs -/

/-- What a launch does when nothing speaks against it. -/
def start (command : Command) : Act σ Unit := do
  match ← create H command with
  | none => fail .forkFailed
  | some pid =>
    if command.background then track H pid else waitFor H pid
    notify H

/-- A launch that passes the two checks starts the program, and does nothing before. -/
theorem launch_eq_start {command : Command}
    (hroom : ¬ (command.background && !sh.jobs.hasCapacity) = true)
    (hfit : unfitWord? command.argv = none) : launch H command sh = start H command sh := by
  have hlook : (get : Act σ (Shell σ)) sh = .ok sh sh := rfl
  rw [launch, bind_of_ok hlook, if_neg hroom, hfit]
  rfl

/-- A background process is tracked if there was room for it, and the launch comes to its end. -/
theorem start_of_create {command : Command} {pid : ProcessId}
    (hbackground : command.background = true) (hroom : sh.jobs.hasCapacity = true)
    (hcreate : create H command sh = .ok (some pid) sh') :
    ∃ table done, sh'.jobs.register? pid = some table ∧ start H command sh = .ok () done := by
  obtain ⟨table, hregister⟩ := register?_of_create H hroom hcreate
  rw [start, bind_of_ok hcreate]
  dsimp only
  rw [if_pos hbackground, bind_of_ok (track_of_register? H hregister)]
  exact ⟨table, _, hregister, notify_eq H _⟩

/-- Once a process may exist, nothing turns the command down any more. -/
theorem not_turnsDown_start {command : Command}
    (hroom : command.background = true → sh.jobs.hasCapacity) :
    ¬ TurnsDown (start H command) sh e sh' := by
  rintro ⟨hrun, hrecoverable⟩
  rcases of_bind_eq_error hrun with hcreate | ⟨created, mid, hcreate, hthen⟩
  · exact (firm_create H command).not_turnsDown ⟨hcreate, hrecoverable⟩
  cases created with
  | none => exact (firm_fail rfl).not_turnsDown ⟨hthen, hrecoverable⟩
  | some pid =>
      by_cases hbackground : command.background = true
      · obtain ⟨-, done, -, hdone⟩ := start_of_create H hbackground (hroom hbackground) hcreate
        rw [hdone] at hrun
        exact nomatch hrun
      · dsimp only at hthen
        rw [if_neg hbackground] at hthen
        rcases of_bind_eq_error hthen with hwait | ⟨-, waited, -, hnotify⟩
        · exact (firm_waitFor H pid).not_turnsDown ⟨hwait, hrecoverable⟩
        · rw [notify_eq] at hnotify
          exact nomatch hnotify

/-- **A launch turns its command down exactly for the reasons given**, and then nothing at all has
been done. -/
theorem turnsDown_launch_iff {command : Command} :
    TurnsDown (launch H command) sh e sh' ↔ LaunchRefusal command sh e ∧ sh' = sh := by
  constructor
  · intro hdown
    by_cases hfull : (command.background && !sh.jobs.hasCapacity) = true
    · have hdown := turnsDown_get_bind_iff.mp hdown
      rw [if_pos hfull] at hdown
      obtain ⟨⟨rfl, -⟩, rfl⟩ := turnsDown_fail.mp hdown
      rw [Bool.and_eq_true, Bool.not_eq_true'] at hfull
      exact ⟨.full hfull.1 hfull.2, rfl⟩
    cases hword : unfitWord? command.argv with
    | some word =>
        have hdown := turnsDown_get_bind_iff.mp hdown
        rw [if_neg hfull, hword] at hdown
        obtain ⟨⟨rfl, -⟩, rfl⟩ := turnsDown_fail.mp hdown
        exact ⟨.unfit hfull hword, rfl⟩
    | none =>
        rw [TurnsDown, launch_eq_start H hfull hword] at hdown
        refine absurd hdown (not_turnsDown_start H fun hbackground => ?_)
        simpa [hbackground] using hfull
  · rintro ⟨hreason, rfl⟩
    refine turnsDown_get_bind_iff.mpr ?_
    dsimp only
    cases hreason with
    | full hbackground hfull =>
        have hrefused : (command.background && !sh'.jobs.hasCapacity) = true := by
          rw [hbackground, hfull]
          rfl
        rw [if_pos hrefused]
        exact turnsDown_fail.mpr ⟨⟨rfl, rfl⟩, rfl⟩
    | unfit hroom hword =>
        rw [if_neg hroom, hword]
        exact turnsDown_fail.mpr ⟨⟨rfl, rfl⟩, rfl⟩

/-! ## Lines -/

/-- A builtin is turned down if it is to change the directory and cannot. -/
theorem turnsDown_builtin_iff {builtin : Builtin} {arguments : List Word} :
    TurnsDown (do print H (← runBuiltin H builtin arguments)) sh e sh' ↔
      (builtin = .changeDirectory ∧ DirectoryRefusal H arguments sh.world e) ∧ sh' = sh := by
  rw [turnsDown_bind_iff fun text => firm_print H text]
  cases builtin with
  | changeDirectory =>
      rw [runBuiltin, turnsDown_bind_iff fun _ => firm_pure "",
        turnsDown_runChangeDirectory_iff]
      simp
  | exit =>
      constructor
      · intro hdown
        exact absurd hdown (firm_leave H _).not_turnsDown
      · rintro ⟨⟨hno, -⟩, -⟩
        exact nomatch hno
  | status =>
      constructor
      · intro hdown
        exact absurd hdown (firm_bind firm_get fun _ => firm_pure _).not_turnsDown
      · rintro ⟨⟨hno, -⟩, -⟩
        exact nomatch hno

/-- What is done with a line is decided by what it is to the shell. -/
theorem turnsDown_execute_reading {line : Text} :
    TurnsDown (execute H line) sh e sh' ↔
      TurnsDown (match reading line sh with
        | .error fault => fail (.malformed fault)
        | .ok none => pure ()
        | .ok (some command) => run H command) sh e sh' :=
  Iff.rfl

/-- **Reasons and refusals.**  A line is turned down exactly for its reasons, and the shell is left
as it was. -/
theorem turnsDown_execute_iff {line : Text} :
    TurnsDown (execute H line) sh e sh' ↔ Refusal H line sh e ∧ sh' = sh := by
  rw [turnsDown_execute_reading]
  constructor
  · intro hdown
    rcases hparse : reading line sh with fault | _ | command
    · rw [hparse] at hdown
      obtain ⟨⟨rfl, -⟩, rfl⟩ := turnsDown_fail.mp hdown
      exact ⟨.malformed hparse, rfl⟩
    · rw [hparse] at hdown
      exact absurd hdown (firm_pure ()).not_turnsDown
    · rw [hparse] at hdown
      dsimp only at hdown
      cases hname : Builtin.ofName? command.program with
      | none =>
          rw [run, hname] at hdown
          obtain ⟨hreason, rfl⟩ := (turnsDown_launch_iff H).mp hdown
          exact ⟨.launch hparse hname hreason, rfl⟩
      | some builtin =>
          rw [run, hname] at hdown
          obtain ⟨⟨rfl, hreason⟩, rfl⟩ := (turnsDown_builtin_iff H).mp hdown
          exact ⟨.directory hparse hname hreason, rfl⟩
  · rintro ⟨hreason, rfl⟩
    cases hreason with
    | malformed hparse =>
        rw [hparse]
        exact turnsDown_fail.mpr ⟨⟨rfl, rfl⟩, rfl⟩
    | directory hparse hname hreason =>
        rw [hparse]
        dsimp only
        rw [run, hname]
        exact (turnsDown_builtin_iff H).mpr ⟨⟨rfl, hreason⟩, rfl⟩
    | launch hparse hname hreason =>
        rw [hparse]
        dsimp only
        rw [run, hname]
        exact (turnsDown_launch_iff H).mpr ⟨hreason, rfl⟩

/-- Whoever watches the shell sees nothing when a line is turned down. -/
theorem turnsDown_recorded {line : Text} (hdown : TurnsDown (execute H line) sh e sh') :
    execute H.recorded line (recorded sh) = .error (.failed e) (recorded sh) := by
  have hmirror := mirrors_execute H line (recorded sh)
  have hplain : execute H line (forget (recorded sh)) = .error (.failed e) sh' := hdown.1
  rw [hplain] at hmirror
  cases hrun : execute H.recorded line (recorded sh) with
  | ok a noted =>
      rw [hrun] at hmirror
      exact nomatch hmirror
  | error stop noted =>
      rw [hrun] at hmirror
      obtain ⟨rfl, -⟩ := EStateM.Result.error.inj hmirror
      obtain ⟨-, rfl⟩ := (turnsDown_execute_iff H.recorded).mp ⟨hrun, hdown.2⟩
      rfl

/-- **A line that is turned down leaves no trace.**  The shell is the one it was, with the world
around it; the reason could be told from it; and whoever watches sees no service used: nothing is
printed, no process is created, no file is touched.  The limit of background jobs is no reason any
more when a process exists: there is room for it, and the launch comes to its end. -/
theorem refused_without_trace {line : Text}
    (hrun : execute H line sh = .error (.failed e) sh') (hrecoverable : e.isRecoverable = true) :
    sh' = sh ∧ Refusal H line sh e ∧
    (∃ noted, execute H.recorded line (recorded sh) = .error (.failed e) noted ∧
      noted.world.log = []) ∧
    ∀ (command : Command) (before after : Shell σ) (pid : ProcessId),
      command.background = true → before.jobs.hasCapacity = true →
      unfitWord? command.argv = none → create H command before = .ok (some pid) after →
      ∃ table done, after.jobs.register? pid = some table ∧
        launch H command before = .ok () done := by
  have hdown : TurnsDown (execute H line) sh e sh' := ⟨hrun, hrecoverable⟩
  obtain ⟨hreason, hsame⟩ := (turnsDown_execute_iff H).mp hdown
  refine ⟨hsame, hreason, ⟨_, turnsDown_recorded H hdown, rfl⟩, ?_⟩
  intro command before after pid hbackground hroom hfit hcreate
  have hallowed : ¬ (command.background && !before.jobs.hasCapacity) = true := by simp [hroom]
  rw [launch_eq_start H hallowed hfit]
  exact start_of_create H hbackground hroom hcreate

/-- There is no room for a job at all, and a program is to run in the background. -/
theorem refused_without_trace_of_full :
    let sh : Shell SampleWorld := { sampleShell {} with jobs := { capacity := 0 } }
    execute (sampleHost []) ['m', 'v', ' ', '&'] sh = .error (.failed (.jobLimit 0)) sh ∧
    (ShellError.jobLimit 0).isRecoverable = true ∧
    Refusal (sampleHost []) ['m', 'v', ' ', '&'] sh (.jobLimit 0) ∧
    ∃ noted, execute (sampleHost []).recorded ['m', 'v', ' ', '&'] (recorded sh) =
      .error (.failed (.jobLimit 0)) noted ∧ noted.world.log = [] := by
  have hrun : execute (sampleHost []) ['m', 'v', ' ', '&']
      { sampleShell {} with jobs := { capacity := 0 } } =
        .error (.failed (.jobLimit 0)) { sampleShell {} with jobs := { capacity := 0 } } := rfl
  obtain ⟨-, hreason, hunseen, -⟩ := refused_without_trace (sampleHost []) hrun rfl
  exact ⟨hrun, rfl, hreason, hunseen⟩

end Conch.Shell
