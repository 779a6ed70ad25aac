import Conch.Proofs.Machine.Neighbours

/-!
# The childhood of a process

A child of the shell begins with the signals that the shell had when it created it: the control
signals blocked, and the set for a child installed.  Before it becomes a program it opens its
targets and arranges its descriptors, and it lets its signals through; if anything goes wrong it
leaves.  That is all it does, whatever it is answered (`prepares_childTask`), so one lemma says what
a step of it can be (`young_step`), and what is kept by such a step is kept throughout
(`kept_throughout`).

So however long this takes, and whatever happens on the machine in the meantime (`Elapses`), the
child still has the set it was given when it becomes a program, and by then it blocks no signal
(`youngChild_of_childhood`, `reception_of_become`).
-/

namespace Conch

/-! ## What a child of the shell does -/

/-- On every way of the routine nothing is done to the signals but to let them through, and a
program is only begun after that. -/
inductive Routine.Prepares : (through : Bool) → Routine → Prop where
  | done (through : Bool) (code : Nat) : Prepares through (.done code)
  | arrange {through : Bool} {request : Request} {next : request.Answer → Routine}
      (harranges : request.isArrangement = true)
      (hnext : ∀ answer, Prepares through (next answer)) : Prepares through (.ask request next)
  | unblock {through : Bool} {next : Unit → Routine} (hnext : Prepares true (next ())) :
      Prepares through (.ask .unblock next)
  | become {path : Text} {words : List Text} {environment : List (Text × Text)}
      {next : Errno → Routine} (hnext : ∀ errno, Prepares true (next errno)) :
      Prepares true (.ask (.become path words environment) next)

namespace Task

variable {α β : Type} {before after : Bool}

/-- The task does nothing to the signals but to let them through, and begins programs only after
that. -/
def Prepares (before after : Bool) (task : Task α) : Prop :=
  ∀ next, (∀ a, (next a).Prepares after) → (task next).Prepares before

/-- The same, for a task after which it does not matter whether the signals were let through. -/
def Ends (before : Bool) (task : Task α) : Prop :=
  ∀ next, (∀ a through, (next a).Prepares through) → (task next).Prepares before

theorem prepares_pure (a : α) : Prepares before before (pure a) :=
  fun _ hnext => hnext a

/-- Two parts of a preparation, one after the other, are a preparation, if the second begins where
the first has led to. -/
theorem prepares_bind {task : Task α} {rest : α → Task β} {middle : Bool}
    (htask : Prepares before middle task) (hrest : ∀ a, Prepares middle after (rest a)) :
    Prepares before after (task >>= rest) :=
  fun next hnext => htask _ fun a => hrest a next hnext

/-- A preparation after which the process leaves ends it in one of the ways that are allowed. -/
theorem Prepares.ends {task : Task α} (h : Prepares before after task) : Ends before task :=
  fun next hnext => h next fun a => hnext a after

/-- After a preparation, a task that ends the process in an allowed way ends it so from where the
preparation has led to. -/
theorem ends_bind {task : Task α} {rest : α → Task β} (htask : Prepares before after task)
    (hrest : ∀ a, Ends after (rest a)) : Ends before (task >>= rest) :=
  fun next hnext => htask _ fun a => hrest a next hnext

theorem prepares_ite {p : Prop} [Decidable p] {task task' : Task α}
    (h : Prepares before after task) (h' : Prepares before after task') :
    Prepares before after (if p then task else task') := by
  split
  · exact h
  · exact h'

/-- A request that is about the process itself, its files and its descriptors is a part of the
preparation. -/
theorem prepares_ask {request : Request} (h : request.isArrangement = true) :
    Prepares before before (ask request) :=
  fun _ hnext => .arrange h hnext

/-- Once the signals are let through, the child is ready to become a program. -/
theorem prepares_unblock : Prepares before true (ask .unblock) :=
  fun _ hnext => .unblock (hnext ())

/-- To open a file is a part of the preparation, whether it succeeds or not. -/
theorem prepares_openFile (path : Text) (access : Access) (mode : Nat) :
    Prepares before before (openFile path access mode) := by
  refine prepares_bind (prepares_ask rfl) fun opened => ?_
  cases opened with
  | error reason => exact prepares_pure _
  | ok descriptor =>
      refine prepares_bind (prepares_ask rfl) fun came => ?_
      cases came with
      | true => exact prepares_pure _
      | false => exact prepares_bind (prepares_ask rfl) fun _ => prepares_pure _

theorem prepares_write (descriptor : Nat) (text : Text) :
    Prepares before before (write descriptor text) := by
  unfold write
  split
  · exact prepares_bind (prepares_ask rfl) fun _ => prepares_pure _
  · exact prepares_pure _

/-- Whatever is tried in order to become a program, the signals have been let through. -/
theorem prepares_becomeAt (path : Text) (words : List Text) (environment : List (Text × Text)) :
    Prepares true true (becomeAt path words environment) := by
  have hbecome : ∀ path words, Prepares true true (ask (.become path words environment)) :=
    fun _ _ _ hnext => .become hnext
  exact prepares_bind (hbecome path words) fun errno =>
    prepares_ite (hbecome _ _) (prepares_pure _)

/-- To try one directory of the search path after another is allowed once the signals are let
through, and leaves the child prepared if none has the program. -/
theorem prepares_becomeFirst (words : List Text) (environment : List (Text × Text)) (denied : Bool)
    (directories : List Text) :
    Prepares true true (becomeFirst words environment denied directories) := by
  induction directories generalizing denied with
  | nil => exact prepares_pure _
  | cons directory rest ih =>
      exact prepares_bind (prepares_becomeAt _ words environment) fun errno =>
        prepares_ite (ih true) (prepares_ite (ih denied) (prepares_pure _))

/-- To look for the program and become it is allowed once the signals are let through. -/
theorem prepares_become (words : List Text) (environment : List (Text × Text)) :
    Prepares true true (become words environment) := by
  unfold become
  split
  · exact prepares_pure _
  · exact prepares_pure _
  · exact prepares_ite (prepares_becomeAt _ _ environment)
      (prepares_ite (prepares_pure _) (prepares_becomeFirst _ environment false _))

end Task

namespace Machine

variable {before : Bool}

/-- A child that reports an error and leaves ends in an allowed way, prepared or not. -/
theorem ends_childFailure (e : ShellError) : Task.Ends before (childFailure e) :=
  Task.ends_bind (Task.prepares_write _ _) fun _ => (Task.prepares_pure 1).ends

theorem prepares_connect (opened : Option Nat) (descriptor : Nat) :
    Task.Prepares before before (connect opened descriptor) := by
  cases opened with
  | none => exact Task.prepares_pure _
  | some number =>
      exact Task.prepares_ite
        (Task.prepares_bind (Task.prepares_ask rfl) fun _ => Task.prepares_ask rfl)
        (Task.prepares_pure _)

/-- If a child ends in an allowed way whatever a target is opened as, it does so with the target,
which may also fail to be opened. -/
theorem ends_withTarget (direction : Direction) (target : Option Text)
    {next : Option Nat → Task Nat} (hnext : ∀ opened, Task.Ends before (next opened)) :
    Task.Ends before (withTarget direction target next) := by
  cases target with
  | none => exact hnext none
  | some path =>
      have hopen : Task.Prepares before before (openTarget direction path) := by
        cases direction <;> exact Task.prepares_openFile _ _ _
      refine Task.ends_bind hopen fun opened => ?_
      cases opened with
      | error reason => exact ends_childFailure _
      | ok number => exact hnext (some number)

/-- **A child lets its signals through before it becomes a program**, and does nothing else to
them. -/
theorem prepares_childTask (command : Command) (environment : List (Text × Text)) :
    (Task.routine (childTask command environment)).Prepares false := by
  have hchild : Task.Ends false (childTask command environment) := by
    refine ends_withTarget _ _ fun input => ends_withTarget _ _ fun output => ?_
    refine Task.ends_bind (prepares_connect input _) fun _ => ?_
    refine Task.ends_bind (prepares_connect output _) fun _ => ?_
    refine Task.ends_bind Task.prepares_unblock fun _ => ?_
    refine Task.ends_bind (Task.prepares_become command.argv environment) fun errno => ?_
    exact ends_childFailure _
  exact hchild _ fun code through => .done through code

/-! ## What happens in the meantime -/

variable {m m' : Machine} {pid : ProcessId} {p : Process} {execution : Execution}
  {environment : List (Text × Text)}

/-- The next step of the process makes it a program. -/
structure Becomes (m : Machine) (p : Process) (execution : Execution)
    (environment : List (Text × Text)) : Prop where
  lives : p.doom = none
  awake : p.reception.stopped = false
  asks : ∃ path words next, p.routine = .ask (.become path words environment) next ∧
    m.files.execution p.directory path words = .ok execution

/-- The childhood of the process is over with its next step: it ends, or becomes a program. -/
def GrowsUp (m : Machine) (p : Process) : Prop :=
  p.doom.isSome = true ∨ (∃ code, p.routine = .done code) ∨
    ∃ execution environment, m.Becomes p execution environment

/-- Something happens on the machine, and a process that is young stays so: a process goes on,
somebody sends a signal, the shell creates another child, or anything happens that does not concern
the processes. -/
inductive Elapses (young : ProcessId) (m : Machine) : Machine → Prop where
  | step {p : Process} {m' : Machine} (hthere : m.process? p.pid = some p)
      (hyoung : p.pid = young → ¬ m.GrowsUp p) (hstep : m.step p = some m') : Elapses young m m'
  | signal (target : Int) (signal : Nat) : Elapses young m (m.send target signal).2
  | birth (launch : Launch) : Elapses young m (createChild launch m).2
  | meanwhile {m' : Machine} (hrunning : m'.running = m.running) : Elapses young m m'

/-- A child that was created by this launch, and has kept the signals that it was given: it is about
to do so, or has let them through.  A child that is doomed does nothing any more. -/
def YoungChild (launch : Launch) (p : Process) : Prop :=
  p.doom.isSome = true ∨ ∃ through, p.routine.Prepares through ∧
    p.reception.ignored = (Reception.ofControl launch.signals).ignored ∧
    p.reception.heeded = [] ∧ (through = true → p.reception.blocked = [])

variable {launch : Launch}

/-- A process stays young if it only bears signals and learns of the ends of its children. -/
theorem YoungChild.of_bears {p' : Process} (h : YoungChild launch p) (hbears : p.Bears p') :
    YoungChild launch p' := by
  rcases h with hdoom | ⟨through, hroutine, hignored, hheeded, hblocked⟩
  · exact .inl (hbears.doomed hdoom)
  · refine .inr ⟨through, ?_, hbears.reception.ignored.trans hignored,
      hbears.reception.heeded.trans hheeded, fun hthrough => ?_⟩
    · rwa [hbears.routine]
    · rw [hbears.reception.blocked, hblocked hthrough]

/-- A request other than for a program is answered, or the process waits. -/
theorem step_ask {request : Request} {next : request.Answer → Routine} (hdoom : p.doom = none)
    (hawake : p.reception.stopped = false) (hroutine : p.routine = .ask request next)
    (hplain : ∀ path words environment, request ≠ .become path words environment) :
    m.step p = (m.answer p request).map fun answer => answer.2.resume p.pid (next answer.1) := by
  unfold step
  rw [hdoom, hawake, hroutine]
  cases request with
  | become path words environment => exact absurd rfl (hplain path words environment)
  | _ => rfl

/-- A process that goes on and is not doomed is not stopped. -/
theorem awake_of_step (hdoom : p.doom = none) (hstep : m.step p = some m') :
    p.reception.stopped = false := by
  cases hstopped : p.reception.stopped with
  | false => rfl
  | true =>
      unfold step at hstep
      rw [hdoom, hstopped] at hstep
      exact nomatch hstep

section Step

variable (hdoom : p.doom = none) (hawake : p.reception.stopped = false)
  (hthere : m.process? p.pid = some p) (hstep : m.step p = some m')

include hdoom hawake hthere hstep

/-- When descriptors are arranged the process goes on, and its signals are left alone. -/
theorem step_arrange {request : Request} {next : request.Answer → Routine}
    (hroutine : p.routine = .ask request next) (harranges : request.isArrangement = true) :
    ∃ answer q, m'.process? p.pid = some { q with routine := next answer } ∧ p.Bears q := by
  have hplain : ∀ path words environment, request ≠ .become path words environment := by
    rintro path words environment rfl
    exact nomatch harranges
  rw [step_ask hdoom hawake hroutine hplain] at hstep
  obtain ⟨answered, hanswer, rfl⟩ := Option.map_eq_some_iff.mp hstep
  obtain ⟨q, hq, hbears⟩ := yields_answer hthere request (.inr harranges) answered hanswer p hthere
  exact ⟨answered.1, q, process?_resume_of hq hbears.pid, hbears⟩

/-- When the signals are let through, one of them may be fatal. -/
theorem step_unblock {next : Unit → Routine} (hroutine : p.routine = .ask .unblock next) :
    ∃ p', m'.process? p.pid = some p' ∧ p'.routine = next () ∧
      (p'.doom.isSome = true ∨
        Reception.Agrees { p.reception with blocked := [] } p'.reception) := by
  rw [step_ask hdoom hawake hroutine nofun] at hstep
  have hafter : m' = (m.undergo p p.reception.unblock).resume p.pid (next ()) :=
    (Option.some.inj hstep).symm
  subst hafter
  cases hfreed : p.reception.unblock with
  | survived reception =>
      have hfree : (m.setProcess { p with reception }).process? p.pid = some { p with reception } :=
        process?_setProcess_of hthere rfl
      exact ⟨{ p with reception, routine := next () }, process?_resume_of hfree rfl, rfl,
        .inr (Reception.agrees_unblock hfreed)⟩
  | fatal signal =>
      have hdoomed : (m.setProcess { p with doom := p.doom.or (some signal) }).process? p.pid =
          some { p with doom := p.doom.or (some signal) } := process?_setProcess_of hthere rfl
      refine ⟨{ p with doom := p.doom.or (some signal), routine := next () },
        process?_resume_of hdoomed rfl, rfl, .inl ?_⟩
      rw [hdoom]
      rfl

/-- When there is no such program the process goes on as it was. -/
theorem step_turnedAway {path : Text} {words : List Text} {next : Errno → Routine} {errno : Errno}
    (hroutine : p.routine = .ask (.become path words environment) next)
    (hfound : m.files.execution p.directory path words = .error errno) :
    m'.process? p.pid = some { p with routine := next errno } := by
  unfold step at hstep
  rw [hdoom, hawake, hroutine] at hstep
  dsimp only at hstep
  rw [hfound] at hstep
  obtain rfl := Option.some.inj hstep
  exact process?_resume_of hthere rfl

end Step

/-- The process is doomed by now, or its signals are what they were, unless it has just let them
through and none is blocked any more. -/
def KeepsSignals (through through' : Bool) (p p' : Process) : Prop :=
  p'.doom.isSome = true ∨
    p'.reception.ignored = p.reception.ignored ∧ p'.reception.heeded = p.reception.heeded ∧
      (through' = through ∧ p'.reception.blocked = p.reception.blocked ∨
        through' = true ∧ p'.reception.blocked = [])

/-- **A young process goes on by the answer to its request**, and with signals that are what they
were but for being let through. -/
theorem young_step {through : Bool} (hroutine : p.routine.Prepares through)
    (hthere : m.process? p.pid = some p) (hyoung : ¬ m.GrowsUp p) (hstep : m.step p = some m') :
    ∃ (request : Request) (next : request.Answer → Routine) (answer : request.Answer)
      (p' : Process) (through' : Bool), p.routine = .ask request next ∧
        m'.process? p.pid = some p' ∧ p'.routine = next answer ∧
        p'.routine.Prepares through' ∧ KeepsSignals through through' p p' := by
  obtain ⟨hlives, hbusy, hsmall⟩ : p.doom.isSome ≠ true ∧ (∀ code, p.routine ≠ .done code) ∧
      ∀ execution environment, ¬ m.Becomes p execution environment := by
    simpa only [GrowsUp, not_or, not_exists] using hyoung
  have hdoom : p.doom = none := by simpa using hlives
  have hawake := awake_of_step hdoom hstep
  generalize hnow : p.routine = now at hroutine
  -- What the process may be about to do is said by the constructors of `Prepares`.
  cases hroutine with
  | done through code => exact absurd hnow (hbusy code)
  | @arrange _ request next harranges hnext =>
      obtain ⟨answer, q, hq, hbears⟩ := step_arrange hdoom hawake hthere hstep hnow harranges
      exact ⟨request, next, answer, _, through, rfl, hq, rfl, hnext answer,
        .inr ⟨hbears.reception.ignored, hbears.reception.heeded,
          .inl ⟨rfl, hbears.reception.blocked⟩⟩⟩
  | @unblock _ next hnext =>
      obtain ⟨p', hp', hgoes, hfree⟩ := step_unblock hdoom hawake hthere hstep hnow
      refine ⟨.unblock, next, (), p', true, rfl, hp', hgoes, hgoes ▸ hnext, hfree.imp id ?_⟩
      exact fun hagrees => ⟨hagrees.ignored, hagrees.heeded, .inr ⟨rfl, hagrees.blocked⟩⟩
  | @become path words environment next hnext =>
      cases hfound : m.files.execution p.directory path words with
      | ok execution =>
          exact absurd ⟨hdoom, hawake, path, words, next, hnow, hfound⟩
            (hsmall execution environment)
      | error errno =>
          exact ⟨.become path words environment, next, errno, _, true, rfl,
            step_turnedAway hdoom hawake hthere hstep hnow hfound, rfl, hnext errno,
            .inr ⟨rfl, rfl, .inl ⟨rfl, rfl⟩⟩⟩

/-- **What a step of its own preserves**: a child that does not grow up by it is as young as
before. -/
theorem youngChild_step (h : YoungChild launch p) (hthere : m.process? p.pid = some p)
    (hyoung : ¬ m.GrowsUp p) (hstep : m.step p = some m') :
    ∃ p', m'.process? p.pid = some p' ∧ YoungChild launch p' := by
  have hlives : p.doom.isSome ≠ true := fun hdoom => hyoung (.inl hdoom)
  obtain ⟨through, hroutine, hignored, hheeded, hblocked⟩ := h.resolve_left hlives
  obtain ⟨request, next, answer, p', through', -, hp', -, hprepares, hkeeps⟩ :=
    young_step hroutine hthere hyoung hstep
  refine ⟨p', hp', hkeeps.imp id fun hsame => ?_⟩
  obtain ⟨hignored', hheeded', hfreed⟩ := hsame
  refine ⟨through', hprepares, hignored'.trans hignored, hheeded'.trans hheeded, fun hthrough => ?_⟩
  rcases hfreed with ⟨rfl, hblocked'⟩ | ⟨-, hfree⟩
  · exact hblocked'.trans (hblocked hthrough)
  · exact hfree

/-- **What a young process keeps for one step it keeps throughout its childhood**, if it is nothing
that others could take from it. -/
theorem kept_throughout (Keeps : Process → Prop)
    (hbears : ∀ {p p' : Process}, Keeps p → p.Bears p' → Keeps p')
    (hsteps : ∀ {m m' : Machine} {p : Process}, Keeps p → m.process? p.pid = some p →
      ¬ m.GrowsUp p → m.step p = some m' → ∃ p', m'.process? p.pid = some p' ∧ Keeps p')
    (h : Relation.ReflTransGen (Elapses pid) m m') (hthere : m.process? pid = some p)
    (hkeeps : Keeps p) : ∃ p', m'.process? pid = some p' ∧ Keeps p' := by
  induction h with
  | refl => exact ⟨p, hthere, hkeeps⟩
  | @tail mid m' _ helapses ih =>
      obtain ⟨q, hq, hqkeeps⟩ := ih
      have hspared : Spares pid mid m' → ∃ p', m'.process? pid = some p' ∧ Keeps p' := by
        intro hspares
        obtain ⟨p', hp', hsame⟩ := hspares q hq
        exact ⟨p', hp', hbears hqkeeps hsame⟩
      cases helapses with
      | @step other _ hother hyoung hstep =>
          by_cases hsame : other.pid = pid
          · subst hsame
            obtain rfl : q = other := Option.some.inj (hq.symm.trans hother)
            exact hsteps hqkeeps hq (hyoung rfl) hstep
          · exact hspared (spares_step hother (Ne.symm hsame) hstep)
      | signal target signal => exact hspared (spares_send target signal)
      | birth other => exact hspared (spares_of_append rfl)
      | meanwhile hrunning => exact hspared (spares_of_running hrunning)

/-- The child that a launch creates. -/
def newborn (launch : Launch) (start : Machine) : Process where
  pid := ⟨Int32.ofInt start.nextPid⟩
  parent := start.shellPid
  reception := .ofControl launch.signals
  directory := start.directory
  mask := start.mask
  descriptors := standardDescriptors
  routine := Task.routine (childTask launch.command
    (start.environment ++ (start.home.map fun home => ("HOME".toList, home)).toList ++
      systemVariables))

variable (launch) in
/-- A child that has just been created is there, under the number that was next, if nobody had this
number. -/
theorem process?_newborn {start : Machine}
    (hfresh : start.process? ⟨Int32.ofInt start.nextPid⟩ = none) :
    (createChild launch start).2.process? ⟨Int32.ofInt start.nextPid⟩ =
      some (newborn launch start) := by
  have hrunning : (createChild launch start).2.running =
      start.running ++ [newborn launch start] := rfl
  have hold : start.running.find? (fun q => q.pid == ⟨Int32.ofInt start.nextPid⟩) = none := hfresh
  rw [process?, hrunning, List.find?_append, hold]
  simp [newborn]

variable (launch) in
/-- The process that a launch creates is a young child, which takes signals as the shell did at that
moment. -/
theorem process?_createChild {start : Machine}
    (hfresh : start.process? ⟨Int32.ofInt start.nextPid⟩ = none) :
    ∃ p, (createChild launch start).2.process? ⟨Int32.ofInt start.nextPid⟩ = some p ∧
      YoungChild launch p ∧ p.reception = Reception.ofControl launch.signals :=
  ⟨newborn launch start, process?_newborn launch hfresh,
    .inr ⟨false, prepares_childTask _ _, rfl, rfl, nofun⟩, rfl⟩

/-- What has been let through and left alone, the program gets. -/
theorem youngChild_of_childhood {start : Machine}
    (hfresh : start.process? ⟨Int32.ofInt start.nextPid⟩ = none)
    (hchildhood : Relation.ReflTransGen (Elapses ⟨Int32.ofInt start.nextPid⟩)
      (createChild launch start).2 m) :
    ∃ p, m.process? ⟨Int32.ofInt start.nextPid⟩ = some p ∧ YoungChild launch p := by
  obtain ⟨p, hthere, hchild, -⟩ := process?_createChild launch hfresh
  exact kept_throughout (YoungChild launch) YoungChild.of_bears youngChild_step hchildhood hthere
    hchild

/-- A process that asks to become a program that it may run becomes it in one step. -/
theorem step_becomes (h : m.Becomes p execution environment) :
    m.step p = some (m.become p execution environment) := by
  obtain ⟨hlives, hawake, path, words, next, hroutine, hfound⟩ := h
  unfold step
  rw [hlives, hawake, hroutine]
  dsimp only
  rw [hfound]

/-- The control signals of a child, by the signals of the shell when it was created. -/
theorem disposition_ofControl {s : SignalState} {background : Bool}
    (haction : s.action = .ofFn (HandlerSet.child background).disposition) {r : Reception}
    (hignored : r.ignored = (Reception.ofControl s).ignored) (hheeded : r.heeded = [])
    (c : ControlSignal) :
    r.disposition c.number.toNat = (HandlerSet.child background).disposition c := by
  rw [Reception.disposition, hignored, hheeded, Reception.ofControl, haction]
  cases background <;> cases c <;> rfl

/-- **A child becomes a program with the set of a child and no signal blocked.** -/
theorem reception_of_become (hchild : YoungChild launch p) {background : Bool}
    (haction : launch.signals.action = .ofFn (HandlerSet.child background).disposition)
    (hthere : m.process? p.pid = some p) (hbecomes : m.Becomes p execution environment) :
    ∃ p', (m.become p execution environment).process? p.pid = some p' ∧
      p'.routine = Tool.routineOf execution environment ∧ p'.reception.blocked = [] ∧
      ∀ c : ControlSignal, p'.reception.disposition c.number.toNat =
        (HandlerSet.child background).disposition c := by
  obtain ⟨hlives, -, path, words, next, hroutine, -⟩ := hbecomes
  obtain ⟨through, hprepares, hignored, -, hblocked⟩ :=
    hchild.resolve_left (by rw [hlives]; exact Bool.false_ne_true)
  rw [hroutine] at hprepares
  have hthrough : through = true := by
    cases hprepares with
    | arrange harranges => exact nomatch harranges
    | become => rfl
  exact ⟨_, process?_setProcess_of hthere rfl, rfl, hblocked hthrough,
    disposition_ofControl haction hignored rfl⟩

end Machine

end Conch
