import Conch.Proofs.Machine.Childhood
import Conch.Proofs.Shell.Composition
import Conch.Proofs.Shell.Session
import Conch.Proofs.Signals.Swap

/-!
# The control signals before and after a launch

To launch a program the shell takes two guards, one to create the process and one to wait for it,
and installs two sets of handlers.  However the launch turns out, if the shell goes on it has the
mask it had before and handles its control signals (`launch_restores`): a window of the launch puts
both back (`SwapWindow.settled`), and a guard alone changes no handlers.

The child is created inside the window, so it starts with the control signals blocked and with its
own set (`issues_launch`); what becomes of that is told in `Machine.reception_of_become`.
-/

namespace Conch

namespace SignalState

/-- The same signals are blocked, and they do the same. -/
structure Agrees (s s' : SignalState) : Prop where
  action : s'.action = s.action
  blocked : s'.blocked = s.blocked

variable {s s' s'' : SignalState}

theorem Agrees.refl (s : SignalState) : Agrees s s :=
  ⟨rfl, rfl⟩

theorem Agrees.trans (h : Agrees s s') (h' : Agrees s' s'') : Agrees s s'' :=
  ⟨h'.action.trans h.action, h'.blocked.trans h.blocked⟩

/-- A signal that is delivered, if the process lives on, changes neither the mask nor a
disposition. -/
theorem agrees_deliver {c : ControlSignal} (h : s.deliver c = .alive s') : Agrees s s' := by
  unfold deliver at h
  cases haction : s.action.get c with
  | default =>
      rw [haction] at h
      cases c with
      | stop => cases h; exact ⟨rfl, rfl⟩
      | interrupt => exact nomatch h
      | terminate => exact nomatch h
  | ignore =>
      rw [haction] at h
      cases h
      exact ⟨rfl, rfl⟩
  | handler =>
      rw [haction] at h
      cases c with
      | stop => cases h; exact ⟨rfl, rfl⟩
      | interrupt => cases h; exact ⟨rfl, rfl⟩
      | terminate => exact nomatch h

/-- A signal that is raised, if the process lives on, changes neither the mask nor a disposition. -/
theorem agrees_raise {c : ControlSignal} (h : s.raise c = .alive s') : Agrees s s' := by
  unfold raise at h
  split at h
  · cases h; exact ⟨rfl, rfl⟩
  · exact agrees_deliver h

/-- Who lives after two things has lived after the first one, and the second began from there. -/
theorem of_andThen_eq_alive {fate : Fate} {next : SignalState → Fate}
    (h : fate.andThen next = .alive s') : ∃ mid, fate = .alive mid ∧ next mid = .alive s' := by
  cases fate with
  | alive mid => exact ⟨mid, rfl, h⟩
  | killed c announced => exact nomatch h

theorem agrees_raiseAll {cs : List ControlSignal} (h : s.raiseAll cs = .alive s') :
    Agrees s s' := by
  induction cs generalizing s with
  | nil => cases h; exact .refl _
  | cons c cs ih =>
      obtain ⟨mid, hfirst, hrest⟩ := of_andThen_eq_alive h
      exact (agrees_raise hfirst).trans (ih hrest)

/-- A signal that is let go, if the process lives on, changes neither the mask nor a disposition. -/
theorem agrees_release {c : ControlSignal} (h : s.release c = .alive s') : Agrees s s' := by
  unfold release at h
  split at h
  · have hdelivered := agrees_deliver h
    exact ⟨hdelivered.action, hdelivered.blocked⟩
  · cases h; exact .refl _

/-- To replace the mask is to change nothing but the mask, whatever is delivered then. -/
theorem agrees_setBlocked {mask : PerSignal Bool} (h : s.setBlocked mask = .alive s') :
    Agrees { s with blocked := mask } s' := by
  obtain ⟨first, hinterrupt, h⟩ := of_andThen_eq_alive h
  obtain ⟨second, hterminate, hstop⟩ := of_andThen_eq_alive h
  exact ((agrees_release hinterrupt).trans (agrees_release hterminate)).trans (agrees_release hstop)

end SignalState

namespace Shell

variable {σ α : Type}

/-! ## The shell -/

/-- The mask is the same as before, and so are the handlers if they were those of the shell. -/
def restoring : Frame σ where
  Allows sh sh' := sh'.signals.blocked = sh.signals.blocked ∧
    (sh.signals.action = .const .handler → sh'.signals.action = .const .handler)
  refl _ := ⟨rfl, id⟩
  trans h h' := ⟨h'.1.trans h.1, fun hhandled => h'.2 (h.2 hhandled)⟩

variable (H : Host σ) (command : Command)

/-- Whatever does not touch the control signals leaves them as they are. -/
theorem attends_restoring : restoring.leading.Attends H := by
  have hsame : ∀ {sh sh' : Shell σ}, sh'.signals = sh.signals → restoring.Allows sh sh' :=
    fun hsame => ⟨congrArg SignalState.blocked hsame, fun hhandled => by rwa [hsame]⟩
  refine ⟨fun text => ?_, ?_, fun jobs => ?_, fun cause => ?_⟩
  · exact Frame.Bounds.leads fun _ => hsame rfl
  · refine Frame.Bounds.leads fun sh => ?_
    rw [notify_eq]
    exact hsame rfl
  · exact Frame.Bounds.leads fun _ => hsame rfl
  · exact Frame.Bounds.leads fun _ => hsame rfl

/-- An action that leaves the control signals alone changes, under a guard, neither the mask nor the
handlers. -/
theorem agrees_of_guarded {action : Act σ α} {a : α} {sh sh' : Shell σ}
    (hplain : ∀ sh sh', action sh = .ok a sh' → sh'.signals = sh.signals)
    (h : guarded H action sh = .ok a sh') : sh.signals.Agrees sh'.signals := by
  obtain ⟨begun, done, last, htake, hrun, hlater, hadjust⟩ := of_guarded_eq_ok H h
  obtain ⟨early, hearly⟩ := raised_of_takeSignals H htake
  obtain ⟨late, hlate⟩ := raised_of_takeSignals H hlater
  obtain ⟨released, hmask, rfl⟩ := of_adjust_eq_ok H hadjust
  have hbegun := SignalState.agrees_raiseAll hearly
  have hdone := SignalState.agrees_raiseAll hlate
  have hback := SignalState.agrees_setBlocked hmask
  refine ⟨?_, hback.blocked⟩
  calc released.action
      = last.signals.action := hback.action
    _ = done.signals.action := hdone.action
    _ = begun.signals.action := by rw [hplain begun done hrun]
    _ = sh.signals.action := hbegun.action

/-- To wait for a child under a guard restores the mask, and the handlers are not touched. -/
theorem leads_wait (pid : ProcessId) :
    restoring.Leads (guarded H (request (H.wait pid))) := by
  have hkills : OnlyKills (guarded H (request (H.wait pid))) :=
    onlyKills_guarded H (onlyKills_of_ok fun sh => ⟨_, _, rfl⟩)
  refine Frame.leads_of_onlyKills hkills fun sh answers sh' hrun => ?_
  have hagrees := agrees_of_guarded H (fun _ _ hwait => by cases hwait; rfl) hrun
  exact ⟨hagrees.blocked, fun hhandled => by rwa [hagrees.action]⟩

/-- **The creation of a process restores the mask and the handlers**: those of the child are in
force only between the two guards. -/
theorem leads_create : restoring.Leads (create H command) := by
  refine Frame.leads_of_onlyKills (onlyKills_create H command) fun sh pid sh' hrun => ?_
  obtain ⟨window, -, hfate⟩ := create_window H hrun
  have hsettled := window.settled sh.signals
  by_cases hheard : (.terminate, .handler) ∈ (window.run sh.signals).delivered
  · have hdead := hsettled.ended hheard
    rw [hfate] at hdead
    exact nomatch hdead
  · obtain ⟨s', halive, haction, hblocked, -⟩ := hsettled.lived hheard
    rw [hfate] at halive
    obtain rfl := Fate.alive.inj halive
    exact ⟨hblocked, fun _ => haction⟩

/-- **A launch puts back what it has changed**, whatever it comes to. -/
theorem launch_restores : restoring.Leads (launch H command) :=
  Compositional.has_launch (attends_restoring H) (leads_create H command) (leads_wait H)

/-! ## The child -/

/-- The process is created for the command, with its own set, and the control signals blocked. -/
structure Equipped (launch : Launch) : Prop where
  same : launch.command = command
  held : launch.signals.blocked = .const true
  armed : launch.signals.action = .ofFn (HandlerSet.child command.background).disposition

/-- If a process is created, it is created for the command. -/
def Suits : Event → Prop
  | .created launch _ => Equipped command launch
  | _ => True

/-- All that is noted suits the command. -/
def suiting : Frame (Recorded σ) where
  Allows sh sh' := ∃ new, sh'.world.log = sh.world.log ++ new ∧ ∀ event ∈ new, Suits command event
  refl _ := ⟨[], by simp⟩
  trans := by
    rintro sh sh' sh'' ⟨new, hlog, hnew⟩ ⟨new', hlog', hnew'⟩
    refine ⟨new ++ new', by rw [hlog', hlog, List.append_assoc], fun event hin => ?_⟩
    rcases List.mem_append.mp hin with hin | hin
    · exact hnew event hin
    · exact hnew' event hin

/-- Nothing is created quietly, so that what is noted of a quiet action suits any command. -/
theorem suits_of_quiet {action : Act (Recorded σ) α} (h : (quiet H.recorded).Bounds action) :
    (suiting command).Bounds action := by
  intro sh
  obtain ⟨new, hlog, hminor⟩ := (uneventful_of_quiet (h sh)).log
  refine ⟨new, hlog, fun event hin => ?_⟩
  have hevent := hminor event hin
  cases event with
  | created launch pid => exact absurd hevent id
  | _ => trivial

/-- To set the control signals asks for no process, so it suits any command. -/
theorem suits_signals (set : SignalState → SignalState) : (suiting command).Bounds
    (modify fun sh : Shell (Recorded σ) => { sh with signals := set sh.signals }) :=
  fun _ => ⟨[], (List.append_nil _).symm, by simp⟩

/-- To take in signals asks for no process, so that nothing is noted that could be amiss. -/
theorem suits_takeSignals : (suiting command).Bounds (takeSignals H.recorded) :=
  suits_of_quiet H command (quiet_takeSignals H.recorded)

/-- **A process is created in the window, with its own set.** -/
theorem suits_create : (suiting command).Bounds (create H.recorded command) := by
  have htake := suits_takeSignals H command
  intro sh
  refine Frame.allows_bind ((suiting command).refl sh) fun _ _ hlook => ?_
  cases hlook
  refine Frame.allows_bind (suits_signals command SignalState.block sh) fun _ _ hblock => ?_
  cases hblock
  refine Frame.allows_bind (htake _) fun _ begun hbegun => ?_
  -- From here to the release of the guard all that comes in waits.
  obtain ⟨early, hearly⟩ := raised_of_takeSignals H.recorded hbegun
  obtain ⟨-, hheld⟩ := signals_of_raiseAll rfl hearly
  refine Frame.allows_bind ?_ fun pid done _ => ?_
  · refine Frame.allows_bind
      (suits_signals command (·.install (.child command.background)) begun) fun _ _ harm => ?_
    cases harm
    refine Frame.allows_bind (htake _) fun _ ready hready => ?_
    obtain ⟨before, hbefore⟩ := raised_of_takeSignals H.recorded hready
    have hagrees := SignalState.agrees_raiseAll hbefore
    refine Frame.allows_bind ((suiting command).refl ready) fun _ _ hlook => ?_
    cases hlook
    refine Frame.allows_bind ?_ fun pid forked _ => ?_
    · refine ⟨[.created { command, signals := ready.signals } _], rfl, fun event hin => ?_⟩
      cases List.mem_singleton.mp hin
      refine ⟨rfl, hagrees.blocked.trans hheld, hagrees.action.trans ?_⟩
      cases command.background <;> rfl
    · exact (suiting command).bounds_bind htake
        (fun _ => (suiting command).bounds_bind
          (suits_signals command (·.install .interactive))
          fun _ => (suiting command).bounds_pure pid) forked
  · have hlater : (suiting command).Bounds (do
        takeSignals H.recorded
        adjust H.recorded (·.setBlocked sh.signals.blocked)
        pure pid) :=
      (suiting command).bounds_bind htake fun _ =>
        (suiting command).bounds_bind (suits_of_quiet H command (quiet_adjust H.recorded _))
          fun _ => (suiting command).bounds_pure pid
    exact hlater done

theorem suits_wait (pid : ProcessId) :
    (suiting command).Bounds (guarded H.recorded (request (H.recorded.wait pid))) := by
  change (suiting command).bounding.Has (guarded H.recorded (request (H.recorded.wait pid)))
  refine Compositional.has_guarded (suits_signals command SignalState.block)
    (suits_takeSignals H command)
    (fun _ => suits_of_quiet H command (quiet_adjust H.recorded _)) fun sh => ?_
  exact ⟨[.waited pid _], rfl, by simp [Suits]⟩

/-- What a shell does about its user and its own memory asks for no process. -/
theorem attends_suiting : (suiting command).bounding.Attends H.recorded := by
  refine ⟨fun text sh => ⟨[.printed text], rfl, by simp [Suits]⟩, fun sh => ?_,
    fun jobs sh => (suiting command).refl sh, fun cause sh => (suiting command).refl sh⟩
  rw [notify_eq]
  refine ⟨_, (log_notified H sh).trans (List.append_assoc _ _ _), fun event hin => ?_⟩
  simp only [List.mem_append, List.mem_map] at hin
  rcases hin with ⟨asked, -, rfl⟩ | ⟨job, -, rfl⟩
  · trivial
  · trivial

/-- **A launch creates no process but one of its command**, with its own set. -/
theorem suits_launch : (suiting command).Bounds (launch H.recorded command) :=
  Compositional.has_launch (attends_suiting H command) (suits_create H command)
    (suits_wait H command)

/-! ## Both -/

/-- **A launch leaves the control signals as they were, and gives the child its own.**  Whatever the
launch comes to, if the shell goes on it handles its control signals and has the mask of before.
Any process that was created meanwhile was created for the command, with the control signals blocked
and the set of a child.  Such a process lets them through before it becomes a program, whatever has
been raised until then; on a machine it has become the program, after whatever has happened there in
the meantime, with no signal blocked and just that set. -/
theorem launch_balanced (sh : Shell σ) (hhandled : sh.signals.action = .const .handler) :
    (∀ sh', reached? (launch H command sh) = some sh' →
      sh'.signals.action = .const .handler ∧ sh'.signals.blocked = sh.signals.blocked) ∧
    ∀ launch pid,
      Event.created launch pid ∈ (left (Shell.launch H.recorded command (recorded sh))).world.log →
      Equipped command launch ∧
      (∀ (cs : List ControlSignal) (s s' : SignalState),
        SignalState.raiseAll { launch.signals with pending := .const false } cs = .alive s →
        s.finishInChild = .alive s' → s'.blocked = .const false ∧
          s'.action = .ofFn (HandlerSet.child command.background).disposition) ∧
      ∀ (start m : Machine) (p : Process) (execution : Execution)
        (environment : List (Text × Text)),
        start.process? ⟨Int32.ofInt start.nextPid⟩ = none →
        Relation.ReflTransGen (Machine.Elapses ⟨Int32.ofInt start.nextPid⟩)
          (Machine.createChild launch start).2 m →
        m.process? ⟨Int32.ofInt start.nextPid⟩ = some p →
        m.Becomes p execution environment →
        m.step p = some (m.become p execution environment) ∧
        ∃ p', (m.become p execution environment).process? ⟨Int32.ofInt start.nextPid⟩ = some p' ∧
          p'.routine = Tool.routineOf execution environment ∧ p'.reception.blocked = [] ∧
          ∀ c : ControlSignal, p'.reception.disposition c.number.toNat =
            (HandlerSet.child command.background).disposition c := by
  refine ⟨fun sh' hreached => ?_, fun launch pid hcreated => ?_⟩
  · obtain ⟨hblocked, haction⟩ := launch_restores H command sh sh' hreached
    exact ⟨haction hhandled, hblocked⟩
  · obtain ⟨new, hlog, hsuits⟩ := suits_launch H command (recorded sh)
    have hnew : Event.created launch pid ∈ new := by
      have hempty : (recorded sh).world.log = [] := rfl
      rwa [hlog, hempty, List.nil_append] at hcreated
    have hequipped : Equipped command launch := hsuits _ hnew
    refine ⟨hequipped, fun cs s s' hraised hfinished => ?_,
      fun start m p execution environment hfresh hchildhood hthere hbecomes => ?_⟩
    · have hbefore := SignalState.agrees_raiseAll hraised
      have hafter := SignalState.agrees_setBlocked hfinished
      exact ⟨hafter.blocked, hafter.action.trans (hbefore.action.trans hequipped.armed)⟩
    · obtain ⟨q, hq, hchild⟩ := Machine.youngChild_of_childhood hfresh hchildhood
      obtain rfl : p = q := Option.some.inj (hthere.symm.trans hq)
      have hpid := Machine.pid_of_process? hthere
      have hreception := Machine.reception_of_become hchild hequipped.armed
        (Machine.process?_pid hthere) hbecomes
      rw [hpid] at hreception
      exact ⟨Machine.step_becomes hbecomes, hreception⟩

/-! ## A small machine -/

/-- A command that runs a program in the background. -/
def loneCommand : Command where
  program := ['/', 'l', 's']
  arguments := []
  redirects := {}
  background := true

/-- A machine with this program on it. -/
def loneMachine : Machine where
  files := ({} : FileTree).plant [['l', 's']] (.program ['l', 's'])
  openings := Machine.standardOpenings
  shellPid := ⟨1⟩
  nextPid := 2
  directory := FileTree.root
  home := none

/-- A shell that blocks some of its control signals. -/
def maskedShell : Shell SampleWorld :=
  { sampleShell {} with
    signals := { (sampleShell {}).signals with blocked := ⟨true, false, true⟩ } }

/-- The launch of the command by this shell. -/
def loneLaunch : Launch where
  command := loneCommand
  signals := maskedShell.signals.enterChild true

/-- The child that is created. -/
def loneChild : Process where
  pid := ⟨2⟩
  parent := ⟨1⟩
  reception := .ofControl loneLaunch.signals
  directory := FileTree.root
  mask := 0
  descriptors := Machine.standardDescriptors
  routine := Task.routine (Machine.childTask loneCommand Machine.systemVariables)

/-- After one step the child is about to become the program. -/
theorem loneChild_becomes :
    ∃ m p execution environment,
      Relation.ReflTransGen (Machine.Elapses ⟨2⟩)
        (Machine.createChild loneLaunch loneMachine).2 m ∧
      m.process? ⟨2⟩ = some p ∧ m.Becomes p execution environment := by
  let born : Machine := (Machine.createChild loneLaunch loneMachine).2
  let ready : Process := { loneChild with
    reception := { ignored := [13, 2, 20] }
    routine := Task.routine (do
      let errno ← Task.become [['/', 'l', 's']] Machine.systemVariables
      Machine.childFailure (.cannotRun ['/', 'l', 's'] errno)) }
  have hchild : born.process? ⟨2⟩ = some loneChild := rfl
  have hyoung : ¬ born.GrowsUp loneChild := by
    rintro (hdoom | ⟨code, hdone⟩ | ⟨execution, environment, hbecomes⟩)
    · exact nomatch hdoom
    · exact nomatch hdone
    · obtain ⟨-, -, path, words, next, hroutine, -⟩ := hbecomes
      exact nomatch hroutine
  have hstep := Machine.step_ask (m := born) (p := loneChild) rfl rfl rfl nofun
  have hfreed : loneChild.reception.unblock = .survived { ignored := [13, 2, 20] } := by
    have hnone : loneChild.reception.pending = [] := rfl
    rw [Reception.unblock, Reception.releaseAll, hnone]
    simp only [List.filter_nil, List.mergeSort_nil, Reception.deliverAll]
    rfl
  have hafter : ((born.undergo loneChild loneChild.reception.unblock).resume loneChild.pid
      ready.routine).process? loneChild.pid = some ready := by
    rw [hfreed]
    let freed : Process := { loneChild with reception := { ignored := [13, 2, 20] } }
    have hset : (born.setProcess freed).process? loneChild.pid = some freed :=
      Machine.process?_setProcess_of hchild rfl
    exact Machine.process?_resume_of (p := loneChild) hset rfl
  obtain ⟨next, hnext⟩ : ∃ next, ready.routine =
      .ask (.become ['/', 'l', 's'] [['/', 'l', 's']] Machine.systemVariables) next := ⟨_, rfl⟩
  exact ⟨_, ready, ⟨['l', 's'], [['/', 'l', 's']]⟩, Machine.systemVariables,
    .single (.step hchild (fun _ => hyoung) hstep), hafter, rfl, rfl, ['/', 'l', 's'],
    [['/', 'l', 's']], next, hnext, by decide +kernel⟩

/-- A shell with a mask of its own launches a program in the background, and the child becomes it
with an interrupt ignored and no signal blocked. -/
theorem launch_balanced_of_mask :
    maskedShell.signals.action = .const .handler ∧
    (∃ sh', reached? (launch (sampleHost []) loneCommand maskedShell) = some sh' ∧
      sh'.signals.action = .const .handler ∧ sh'.signals.blocked = ⟨true, false, true⟩) ∧
    Event.created loneLaunch (some ⟨7⟩) ∈
      (left (launch (sampleHost []).recorded loneCommand (recorded maskedShell))).world.log ∧
    ∃ (m : Machine) (p : Process) (execution : Execution) (environment : List (Text × Text))
        (p' : Process),
      m.process? ⟨2⟩ = some p ∧ m.Becomes p execution environment ∧
      (m.become p execution environment).process? ⟨2⟩ = some p' ∧ p'.reception.blocked = [] ∧
      p'.reception.disposition ControlSignal.interrupt.number.toNat = .ignore := by
  obtain ⟨hshell, hchild⟩ := launch_balanced (sampleHost []) loneCommand maskedShell rfl
  obtain ⟨sh', hsh'⟩ :
      ∃ sh', reached? (launch (sampleHost []) loneCommand maskedShell) = some sh' :=
    Option.isSome_iff_exists.mp (by decide +kernel)
  have hcreated : Event.created loneLaunch (some ⟨7⟩) ∈
      (left (launch (sampleHost []).recorded loneCommand (recorded maskedShell))).world.log := by
    decide +kernel
  obtain ⟨-, -, hbecome⟩ := hchild loneLaunch (some ⟨7⟩) hcreated
  obtain ⟨m, p, execution, environment, hchildhood, hthere, hbecomes⟩ := loneChild_becomes
  obtain ⟨-, p', hp', -, hblocked, hset⟩ :=
    hbecome loneMachine m p execution environment rfl hchildhood hthere hbecomes
  exact ⟨rfl, ⟨sh', hsh', hshell sh' hsh'⟩, hcreated, m, p, execution, environment, p', hthere,
    hbecomes, hp', hblocked, hset .interrupt⟩

end Shell

end Conch
