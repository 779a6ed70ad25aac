import Conch.Proofs.Machine.ChildFailure
import Conch.Proofs.Shell.Outcome
import Conch.Proofs.Shell.NoSignals

/-!
# Commands whose targets cannot be opened

Between its signals a shell does nothing to a machine but what its action does: it takes in what has
arrived (`of_guarded`, `of_create`).  So when the targets of a foreground command cannot be opened
the child is all that this costs (`CostsChild`), and behind a background command the shell goes on
whatever becomes of them (`launch_behind`).
-/

namespace Conch

namespace Shell

variable {σ α : Type} {H : Host σ} {sh sh' : Shell σ}

/-! ## What happens between the signals -/

/-- A guarded action that comes to its end is done between signals that are taken in before it and
after it. -/
theorem of_guarded {action : Act σ α} {a : α} (h : guarded H action sh = .ok a sh') :
    ∃ early late done,
      action { sh with signals := early, world := (H.arrivals sh.world).2 } = .ok a done ∧
        sh' = { done with signals := late, world := (H.arrivals done.world).2 } := by
  obtain ⟨begun, done, last, htake, hrun, hlater, hadjust⟩ := of_guarded_eq_ok H h
  obtain ⟨-, early, -, rfl⟩ := of_takeSignals_eq_ok H htake
  obtain ⟨-, held, -, rfl⟩ := of_takeSignals_eq_ok H hlater
  obtain ⟨late, -, rfl⟩ := of_adjust_eq_ok H hadjust
  exact ⟨early, late, done, hrun, rfl⟩

/-- A process that is created is so between signals that are taken in before it and after it, all of
them held off. -/
theorem of_create {command : Command} {created : Option ProcessId}
    (h : create H command sh = .ok created sh') :
    ∃ signals late, let heard := (H.arrivals (H.arrivals sh.world).2).2
      (H.fork ⟨command, signals⟩ heard).1 = created ∧
        sh' = { sh with
          signals := late
          world := (H.arrivals (H.arrivals (H.fork ⟨command, signals⟩ heard).2).2).2 } := by
  obtain ⟨begun, ready, drained, last, hbegun, hready, hfork, hdrained, hlast, hadjust⟩ :=
    of_create_eq_ok H h
  obtain ⟨-, early, -, rfl⟩ := of_takeSignals_eq_ok H hbegun
  obtain ⟨-, signals, -, rfl⟩ := of_takeSignals_eq_ok H hready
  obtain ⟨-, after, -, rfl⟩ := of_takeSignals_eq_ok H hdrained
  obtain ⟨-, held, -, rfl⟩ := of_takeSignals_eq_ok H hlast
  obtain ⟨late, -, rfl⟩ := of_adjust_eq_ok H hadjust
  exact ⟨signals, late, hfork, rfl⟩

/-! ## On a machine -/

section Machine

open Conch.Machine

variable {sh sh' : Shell Machine} {command : Command} {e : ShellError} {pid : ProcessId}

/-- Where no signal is on its way none arrives, and the machine stays as it is. -/
theorem arrivals_of_empty {m : Machine} (h : m.inbox = []) : Machine.host.arrivals m = ([], m) := by
  change (m.inbox, m.cleared) = ([], m)
  rw [h, cleared_of_empty h]

/-- What the creation of a process comes to on a machine. -/
theorem createChild_of_create {created : Option ProcessId}
    (h : create Machine.host command sh = .ok created sh') :
    ∃ signals late, created = some ⟨Int32.ofInt sh.world.nextPid⟩ ∧ sh' = { sh with
      signals := late
      world := (createChild ⟨command, signals⟩ sh.world.cleared).2 } := by
  obtain ⟨signals, late, hcreated, hafter⟩ := of_create h
  exact ⟨signals, late, hcreated.symm, hafter⟩

/-- What waiting for a process comes to on a machine. -/
theorem wait_of_guarded {answers : List WaitAnswer}
    (h : guarded Machine.host (request (Machine.host.wait pid)) sh = .ok answers sh') :
    ∃ late, (Machine.wait pid sh.world.cleared).1 = answers ∧ sh' = { sh with
      signals := late
      world := (Machine.wait pid sh.world.cleared).2.cleared } := by
  obtain ⟨early, late, done, hrun, hafter⟩ := of_guarded h
  obtain ⟨rfl, rfl⟩ := EStateM.Result.ok.inj hrun
  exact ⟨late, rfl, hafter⟩

/-- A sweep changes nothing about the machine but which children have not been collected. -/
theorem world_sweepJobs (jobs : List Job) (m : Machine) : ∃ children,
    (JobTable.sweepJobs Machine.host.poll jobs m).world = { m with children } := by
  induction jobs generalizing m with
  | nil => exact ⟨m.children, rfl⟩
  | cons job jobs ih =>
      obtain ⟨children, hrest⟩ := ih (Machine.host.poll job.pid m).2
      exact ⟨children, (JobTable.world_sweepJobs_cons _ job jobs m).trans hrest⟩

/-- To print lines changes nothing about the machine but its output. -/
theorem world_printAll (lines : List String) (m : Machine) : ∃ output,
    printAll Machine.host lines m = { m with output } := by
  induction lines generalizing m with
  | nil => exact ⟨m.output, rfl⟩
  | cons line lines ih => exact ih (Machine.host.print line m)

/-- To tell the user about background jobs is to ask about them and to print. -/
theorem world_notified (sh : Shell Machine) : ∃ children output,
    (notified Machine.host sh).world = { sh.world with children, output } := by
  obtain ⟨children, hsweep⟩ := world_sweepJobs sh.jobs.jobs sh.world
  obtain ⟨output, hprint⟩ := world_printAll
    ((JobTable.sweepJobs Machine.host.poll sh.jobs.jobs sh.world).completed.map
      fun job => job.text ++ "\n") { sh.world with children }
  refine ⟨children, output, Eq.trans ?_ hprint⟩
  rw [← hsweep]
  rfl

/-- **A command whose targets cannot be opened costs the child**, and nothing else.  The command
counts as the last one, and it has failed; the files are as they were, and the user is told why.
Nothing is left of the child but this, and then the user is told about background jobs, as after
every command. -/
structure CostsChild (e : ShellError) (sh sh' : Shell Machine) : Prop where
  last : sh'.interpreter.status.last = .exited 1
  files : sh'.world.files = sh.world.files
  errors : sh'.world.errors = sh.world.errors ++ complaint e
  told : ∃ signals world,
    OnlyComplains e ⟨Int32.ofInt sh.world.nextPid⟩ sh.world world ∧
      sh' = notified Machine.host { sh with
        signals, world
        interpreter := { sh.interpreter with
          status := sh.interpreter.status.record (.exited 1) } }

/-- What is left of the child is no more than that. -/
theorem costsChild_of_told {signals : SignalState} {world : Machine}
    (h : OnlyComplains e ⟨Int32.ofInt sh.world.nextPid⟩ sh.world world) :
    CostsChild e sh (notified Machine.host { sh with
      signals, world
      interpreter := { sh.interpreter with
        status := sh.interpreter.status.record (.exited 1) } }) := by
  obtain ⟨children, output, hworld⟩ := world_notified { sh with
    signals, world
    interpreter := { sh.interpreter with status := sh.interpreter.status.record (.exited 1) } }
  obtain ⟨openings, clock, others, running, nextPid, inbox, hsame⟩ := h.same
  refine ⟨ExitStatus.last_record sh.interpreter.status (.exited 1), ?_, ?_, signals, world, h, rfl⟩
  · rw [hworld, hsame]
  · rw [hworld, hsame]

section Launch

variable (hfront : command.background = false) (hfit : unfitWord? command.argv = none)

include hfront hfit

/-- A foreground command is launched by creating a process and waiting for it. -/
theorem launch_inFront : launch Machine.host command sh =
    (create Machine.host command >>= fun
      | none => fail .forkFailed
      | some pid => waitFor Machine.host pid >>= fun _ => notify Machine.host) sh := by
  have hfull : ¬ (command.background && !sh.jobs.hasCapacity) = true := by
    rw [hfront]
    exact Bool.false_ne_true
  rw [launch_eq_start Machine.host hfull hfit, start, hfront]
  rfl

variable (hserviceable : sh.world.Serviceable)
  (hordinary : OrdinaryTargets command.redirects sh.world.files sh.world.directory)
  (hfails : command.redirects.openTargets sh.world.files sh.world.directory sh.world.mask =
    .error e)

include hserviceable hordinary hfails

/-- A shell that hears of the end of the child survives the command. -/
theorem costsChild_of_waited {created : Option ProcessId} {started waited : Shell Machine}
    {answers : List WaitAnswer}
    (hcreate : create Machine.host command sh = .ok created started)
    (hwait : guarded Machine.host
      (request (Machine.host.wait ⟨Int32.ofInt sh.world.nextPid⟩)) started = .ok answers waited) :
    ∃ sh', launch Machine.host command sh = .ok () sh' ∧ CostsChild e sh sh' := by
  obtain ⟨signals, late, rfl, rfl⟩ := createChild_of_create hcreate
  obtain ⟨m, hanswer, hcosts, -⟩ := wait_failing ⟨command, signals⟩ hserviceable.cleared rfl hfront
    hordinary hfails
  obtain ⟨last, hanswers, rfl⟩ := wait_of_guarded hwait
  have hquiet : (createChild ⟨command, signals⟩ sh.world.cleared).2.cleared =
      (createChild ⟨command, signals⟩ sh.world.cleared).2 := cleared_of_empty rfl
  have hsame : Machine.wait ⟨Int32.ofInt sh.world.nextPid⟩
      (createChild ⟨command, signals⟩ sh.world.cleared).2 =
        ([.exited ⟨Int32.ofInt sh.world.nextPid⟩ 1], m) := hanswer
  rw [hquiet, hsame] at hanswers hwait
  subst hanswers
  have hnameable : (Completion.exited 1).Nameable := trivial
  have hwaited := waitFor_of_nameable Machine.host (List.forall_mem_nil _) hwait hnameable
  refine ⟨_, ?_, @costsChild_of_told sh e last _ hcosts.cleared⟩
  rw [launch_inFront hfront hfit, bind_of_ok hcreate]
  dsimp only
  rw [bind_of_ok hwaited, notify_eq]
  rfl

/-- Unless a signal kills the shell, it survives the command. -/
theorem launch_failing :
    (∃ number killed, launch Machine.host command sh =
      .error (.ended (.killed number)) killed) ∨
    ∃ sh', launch Machine.host command sh = .ok () sh' ∧ CostsChild e sh sh' := by
  rcases hcreate : create Machine.host command sh with ⟨created, started⟩ | ⟨stop, killed⟩
  · rcases hwait : guarded Machine.host
        (request (Machine.host.wait ⟨Int32.ofInt sh.world.nextPid⟩)) started with
      ⟨answers, waited⟩ | ⟨stop, killed⟩
    · exact .inr (costsChild_of_waited hfront hfit hserviceable hordinary hfails hcreate hwait)
    · obtain ⟨signals, late, rfl, -⟩ := createChild_of_create hcreate
      have hkills : OnlyKills (guarded Machine.host
          (request (Machine.host.wait ⟨Int32.ofInt sh.world.nextPid⟩))) :=
        onlyKills_guarded _ (onlyKills_of_ok fun sh => ⟨_, _, rfl⟩)
      obtain ⟨number, rfl⟩ := hkills _ _ _ hwait
      have hcut : waitFor Machine.host ⟨Int32.ofInt sh.world.nextPid⟩ started =
          .error (.ended (.killed number)) killed := by rw [waitFor, bind_of_error hwait]
      refine .inl ⟨number, killed, ?_⟩
      rw [launch_inFront hfront hfit, bind_of_ok hcreate]
      exact bind_of_error hcut
  · obtain ⟨number, rfl⟩ := onlyKills_create Machine.host command _ _ _ hcreate
    exact .inl ⟨number, killed, (launch_inFront hfront hfit).trans (bind_of_error hcreate)⟩

/-- A shell to which no signal comes survives the command. -/
theorem launch_failing_of_still (hinbox : sh.world.inbox = [])
    (hdue : ∀ c, sh.signals.isDue c = false) :
    ∃ sh', launch Machine.host command sh = .ok () sh' ∧ CostsChild e sh sh' := by
  obtain ⟨created, started, hcreate, hhushed, hblocked, -⟩ := create_of_still
    (arrivals_of_empty hinbox) hdue command fun launch => arrivals_of_empty hinbox
  have hdue' : ∀ c, started.signals.isDue c = false := by
    intro c
    have hlate := hhushed.isDue (hdue c)
    rwa [← hblocked] at hlate
  have hstarted : started.world.inbox = [] ∧
      (Machine.wait ⟨Int32.ofInt sh.world.nextPid⟩ started.world).2.inbox = [] := by
    obtain ⟨signals, late, -, rfl⟩ := createChild_of_create hcreate
    obtain ⟨m, hanswer, -, hempty⟩ := wait_failing ⟨command, signals⟩ hserviceable.cleared rfl
      hfront hordinary hfails
    exact ⟨rfl, (congrArg (fun answered => answered.2.inbox) hanswer).trans hempty⟩
  have hwait := guarded_request_of_still (arrivals_of_empty hstarted.1) hdue'
    (Machine.host.wait ⟨Int32.ofInt sh.world.nextPid⟩) (arrivals_of_empty hstarted.2)
  exact costsChild_of_waited hfront hfit hserviceable hordinary hfails hcreate hwait

end Launch

/-- A background command is launched whatever becomes of its child, unless a signal kills the
shell. -/
theorem launch_behind (hback : command.background = true) (hfit : unfitWord? command.argv = none)
    (hroom : sh.jobs.hasCapacity = true) :
    (∃ number killed, launch Machine.host command sh =
      .error (.ended (.killed number)) killed) ∨
    ∃ sh', launch Machine.host command sh = .ok () sh' ∧ sh'.world.files = sh.world.files := by
  have hfull : ¬ (command.background && !sh.jobs.hasCapacity) = true := by
    rw [hroom, Bool.not_true, Bool.and_false]
    exact Bool.false_ne_true
  rw [launch_eq_start Machine.host hfull hfit, start]
  rcases hcreate : create Machine.host command sh with ⟨created, started⟩ | ⟨stop, killed⟩
  · obtain ⟨signals, late, rfl, hstarted⟩ := createChild_of_create hcreate
    obtain ⟨table, hregister⟩ := register?_of_create Machine.host hroom hcreate
    let tracked : Shell Machine := { started with
      jobs := table
      world := Machine.host.print
        (Job.begunText ⟨Int32.ofInt sh.world.nextPid⟩ ++ "\n") started.world }
    have htrack : track Machine.host ⟨Int32.ofInt sh.world.nextPid⟩ started = .ok () tracked :=
      track_of_register? Machine.host hregister
    obtain ⟨children, output, hworld⟩ := world_notified tracked
    refine .inr ⟨notified Machine.host tracked, ?_, ?_⟩
    · rw [bind_of_ok hcreate]
      dsimp only
      rw [if_pos hback, bind_of_ok htrack, notify_eq]
    · rw [hworld]
      have hkept : started.world.files = sh.world.files := by rw [hstarted]; rfl
      exact hkept
  · obtain ⟨number, rfl⟩ := onlyKills_create Machine.host command _ _ _ hcreate
    exact .inl ⟨number, killed, bind_of_error hcreate⟩

/-! ## The whole of it -/

/-- A machine with one file. -/
def oneFile : Machine where
  files := (({} : FileTree).create FileTree.root ['k'] (.file [0x61] 0o600)).2
  openings := Machine.standardOpenings
  shellPid := ⟨1⟩
  nextPid := 2
  directory := FileTree.root
  home := none

/-- A command that reads from one path and writes to another. -/
def copy (source sink : Text) (background : Bool) : Command where
  program := ['c']
  arguments := []
  background := background
  redirects := { input := some source, output := some sink }

end Machine

end Shell

end Conch
