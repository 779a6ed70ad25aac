import Conch.Proofs.Machine.Childhood
import Conch.Proofs.Machine.Opening

/-!
# Children that cannot open a target

A child of the shell asks the system to open its targets.  When this is turned down nothing has
happened on the machine, and all that the child still does is to say so on its standard error and to
leave (`Routine.GivesUp`, `wary_childTask`).  So it never becomes the program that it was created
for, however long it takes and whatever else happens meanwhile (`turned_down`).
-/

namespace Conch

/-! ## What a child does when it is turned down -/

namespace Routine

/-- All that is left to do is to write to standard error and to leave with exit code 1. -/
inductive GivesUp : Routine → Prop where
  | done : GivesUp (.done 1)
  | report {bytes : List UInt8} {next : Except Errno Unit → Routine}
      (hnext : ∀ answer, GivesUp (next answer)) : GivesUp (.ask (.write Task.errors bytes) next)

/-- Whoever does this gives up as soon as something cannot be opened. -/
inductive Wary : Routine → Prop where
  | done (code : Nat) : Wary (.done code)
  | openFile {path : Text} {access : Access} {mode : Nat} {next : Except IoError Nat → Routine}
      (herror : ∀ reason, GivesUp (next (.error reason)))
      (hopened : ∀ number, Wary (next (.ok number))) : Wary (.ask (.openFile path access mode) next)
  | ask {request : Request} {next : request.Answer → Routine}
      (hother : ∀ path access mode, request ≠ .openFile path access mode)
      (hnext : ∀ answer, Wary (next answer)) : Wary (.ask request next)

variable {request : Request} {next : request.Answer → Routine}

/-- A process that has given up does so whatever answer it gets to its next request. -/
theorem GivesUp.answered (h : GivesUp (.ask request next)) (answer : request.Answer) :
    (next answer).GivesUp := by
  cases h with
  | report hnext => exact hnext answer

/-- After a request that only arranges something, the child goes on preparing itself, whatever the
answer is. -/
theorem Prepares.arranged {through : Bool} (h : Prepares through (.ask request next))
    (harranges : request.isArrangement = true) (answer : request.Answer) :
    (next answer).Prepares through := by
  cases h with
  | arrange _ hnext => exact hnext answer
  | unblock => exact nomatch harranges
  | become => exact nomatch harranges

/-- A wary process gives up as soon as the opening of a file fails. -/
theorem Wary.turnedDown {path : Text} {access : Access} {mode : Nat}
    {next : Except IoError Nat → Routine} (h : Wary (.ask (.openFile path access mode) next))
    (reason : IoError) : (next (.error reason)).GivesUp := by
  cases h with
  | openFile herror => exact herror reason
  | ask hother => exact absurd rfl (hother path access mode)

/-- A process that gives up is wary, since it opens no more files. -/
theorem GivesUp.wary {routine : Routine} (h : routine.GivesUp) : routine.Wary := by
  induction h with
  | done => exact .done 1
  | report hnext ih => exact .ask nofun ih

/-- A wary process stays wary after its next request, whatever the answer is. -/
theorem Wary.answered (h : Wary (.ask request next)) (answer : request.Answer) :
    (next answer).Wary := by
  cases h with
  | openFile herror hopened =>
      cases answer with
      | error reason => exact (herror reason).wary
      | ok number => exact hopened number
  | ask hother hnext => exact hnext answer

end Routine

namespace Task

variable {α β : Type}

/-- The task is wary if what comes after it is. -/
def Wary (task : Task α) : Prop :=
  ∀ next, (∀ a, (next a).Wary) → (task next).Wary

theorem wary_pure (a : α) : Wary (pure a) :=
  fun _ hnext => hnext a

theorem wary_bind {task : Task α} {rest : α → Task β} (htask : Wary task)
    (hrest : ∀ a, Wary (rest a)) : Wary (task >>= rest) :=
  fun next hnext => htask _ fun a => hrest a next hnext

theorem wary_ite {p : Prop} [Decidable p] {task task' : Task α} (h : Wary task) (h' : Wary task') :
    Wary (if p then task else task') := by
  split
  · exact h
  · exact h'

/-- A request that opens no file cannot fail at opening one, so it is wary. -/
theorem wary_ask {request : Request}
    (hother : ∀ path access mode, request ≠ .openFile path access mode) : Wary (ask request) :=
  fun _ hnext => .ask hother hnext

/-- To become the program at a path opens no file for the process. -/
theorem wary_becomeAt (path : Text) (words : List Text) (environment : List (Text × Text)) :
    Wary (becomeAt path words environment) :=
  wary_bind (wary_ask nofun) fun _ => wary_ite (wary_ask nofun) (wary_pure _)

theorem wary_becomeFirst (words : List Text) (environment : List (Text × Text)) (denied : Bool)
    (directories : List Text) : Wary (becomeFirst words environment denied directories) := by
  induction directories generalizing denied with
  | nil => exact wary_pure _
  | cons directory rest ih =>
      exact wary_bind (wary_becomeAt _ words environment) fun errno =>
        wary_ite (ih true) (wary_ite (ih denied) (wary_pure _))

theorem wary_become (words : List Text) (environment : List (Text × Text)) :
    Wary (become words environment) := by
  unfold become
  split
  · exact wary_pure _
  · exact wary_pure _
  · exact wary_ite (wary_becomeAt _ _ environment)
      (wary_ite (wary_pure _) (wary_becomeFirst _ environment false _))

end Task

namespace Machine

variable {m m' m'' : Machine} {p p' : Process} {pid : ProcessId} {next : Option Nat → Task Nat}

/-- What a child writes about an error. -/
def complaint (e : ShellError) : List UInt8 :=
  Utf8.encode s!"{Shell.reportName}: {e.message}\n".toList

/-- A child that has failed writes its report to standard error, and leaves with code one whatever
comes of that. -/
theorem routine_childFailure (e : ShellError) : Task.routine (childFailure e) =
    .ask (.write Task.errors (complaint e)) fun _ => .done 1 := by
  have htext : (s!"{Shell.reportName}: {e.message}\n".toList != []) = true := by
    simp [String.toList_append, toString]
  change Task.write Task.errors _ (fun _ => .done 1) = _
  unfold Task.write
  rw [if_pos htext]
  rfl

/-- A child that reports an error has given up: all that it still does is write and leave. -/
theorem givesUp_childFailure (e : ShellError) : (Task.routine (childFailure e)).GivesUp := by
  rw [routine_childFailure]
  exact .report fun _ => .done

/-- What a target is opened for. -/
def accessFor : Direction → Access
  | .input => .read
  | .output => .write

/-- A child asks for its target, and goes on when it has got it. -/
theorem routine_withTarget (direction : Direction) (path : Text) (next : Option Nat → Task Nat) :
    ∃ answered, Task.routine (withTarget direction (some path) next) =
        .ask (.openFile path (accessFor direction) FileTree.outputMode) answered ∧
      (∀ reason, answered (.error reason) =
        Task.routine (childFailure (.cannotOpen path direction reason))) ∧
      ∀ number, ∃ came : Bool → Routine, answered (.ok number) = .ask (.awaitPartner number) came ∧
        came true = Task.routine (next (some number)) ∧
        came false = .ask (.close number) fun _ =>
          Task.routine (childFailure (.cannotOpen path direction (.system .interrupted))) := by
  cases direction <;> exact ⟨_, rfl, fun _ => rfl, fun _ => ⟨_, rfl, rfl, rfl⟩⟩

/-- A child that is wary with whatever a target is opened as is wary with the target, since it gives
up if that cannot be opened. -/
theorem wary_withTarget (direction : Direction) (target : Option Text)
    (hnext : ∀ number, (Task.routine (next number)).Wary) :
    (Task.routine (withTarget direction target next)).Wary := by
  cases target with
  | none => exact hnext none
  | some path =>
      obtain ⟨answered, hroutine, herror, hopened⟩ := routine_withTarget direction path next
      rw [hroutine]
      refine .openFile (fun reason => ?_) fun number => ?_
      · rw [herror]
        exact givesUp_childFailure _
      · obtain ⟨came, hawait, hpartner, hnobody⟩ := hopened number
        rw [hawait]
        refine .ask nofun fun answer => ?_
        cases answer with
        | true => exact hpartner ▸ hnext _
        | false =>
            rw [hnobody]
            exact .ask nofun fun _ => (givesUp_childFailure _).wary

theorem wary_connect (opened : Option Nat) (descriptor : Nat) :
    Task.Wary (connect opened descriptor) := by
  cases opened with
  | none => exact Task.wary_pure _
  | some number =>
      exact Task.wary_ite (Task.wary_bind (Task.wary_ask nofun) fun _ => Task.wary_ask nofun)
        (Task.wary_pure _)

/-- A child gives up when it cannot open a target. -/
theorem wary_childTask (command : Command) (environment : List (Text × Text)) :
    (Task.routine (childTask command environment)).Wary := by
  refine wary_withTarget _ _ fun input => wary_withTarget _ _ fun output => ?_
  have hrest : Task.Wary (do
      connect input Task.input
      connect output Task.output
      Task.ask .unblock
      Task.become command.argv environment) := by
    refine Task.wary_bind (wary_connect input _) fun _ => ?_
    refine Task.wary_bind (wary_connect output _) fun _ => ?_
    exact Task.wary_bind (Task.wary_ask nofun) fun _ => Task.wary_become _ _
  exact hrest _ fun errno => (givesUp_childFailure _).wary

/-! ## What becomes of such a child -/

/-- What holds of a routine and of whatever follows an answer holds of a child for as long as it is
prepared. -/
theorem routine_throughout (holds : Routine → Prop)
    (hanswered : ∀ {request : Request} {next : request.Answer → Routine},
      holds (.ask request next) → ∀ answer, holds (next answer))
    (h : Relation.ReflTransGen (Elapses pid) m m') (hthere : m.process? pid = some p)
    (hprepares : ∃ through, p.routine.Prepares through) (hholds : holds p.routine) :
    ∃ p', m'.process? pid = some p' ∧ (∃ through, p'.routine.Prepares through) ∧
      holds p'.routine := by
  refine kept_throughout (fun p => (∃ through, p.routine.Prepares through) ∧ holds p.routine)
    (fun hkeeps hbears => ?_) (fun hkeeps hthere hyoung hstep => ?_) h hthere ⟨hprepares, hholds⟩
  · rwa [hbears.routine]
  · obtain ⟨⟨through, hprepares⟩, hholds⟩ := hkeeps
    obtain ⟨request, next, answer, p', through', hnow, hp', hgoes, hprepared, -⟩ :=
      young_step hprepares hthere hyoung hstep
    exact ⟨p', hp', ⟨through', hprepared⟩, hgoes ▸ hanswered (hnow ▸ hholds) answer⟩

/-- Whoever gives up does not become a program, not even as the next step. -/
theorem not_becomes_of_givesUp (h : p.routine.GivesUp) (execution : Execution)
    (environment : List (Text × Text)) : ¬ m.Becomes p execution environment := by
  rintro ⟨-, -, path, words, next, hroutine, -⟩
  rw [hroutine] at h
  exact nomatch h

variable {launch : Launch} {start : Machine}

/-- **A child that cannot open a target never becomes a program.**  It may ask for the target at any
time, and whatever has happened until then and happens later; the request itself has changed nothing
about the files. -/
theorem turned_down {path : Text} {access : Access} {mode : Nat}
    {next : Except IoError Nat → Routine} {reason : IoError}
    (hfresh : start.process? ⟨Int32.ofInt start.nextPid⟩ = none)
    (hchildhood : Relation.ReflTransGen (Elapses ⟨Int32.ofInt start.nextPid⟩)
      (createChild launch start).2 m)
    (hthere : m.process? ⟨Int32.ofInt start.nextPid⟩ = some p)
    (hroutine : p.routine = .ask (.openFile path access mode) next)
    (hfails : (m.openFile p path access mode).1 = .error reason) (hlives : p.doom = none)
    (hstep : m.step p = some m')
    (hlater : Relation.ReflTransGen (Elapses ⟨Int32.ofInt start.nextPid⟩) m' m'') :
    m'.files = m.files ∧ ∃ p', m''.process? ⟨Int32.ofInt start.nextPid⟩ = some p' ∧
      p'.routine.GivesUp ∧ ∀ execution environment, ¬ m''.Becomes p' execution environment := by
  obtain ⟨q, hq, hprepares, hwary⟩ := routine_throughout Routine.Wary
    (fun hwary answer => hwary.answered answer) hchildhood (process?_newborn launch hfresh)
    ⟨false, prepares_childTask _ _⟩ (wary_childTask _ _)
  obtain rfl : p = q := Option.some.inj (hthere.symm.trans hq)
  obtain ⟨through, hprepares⟩ := hprepares
  have hid := pid_of_process? hthere
  have hafter : m' = m.resume p.pid (next (.error reason)) := by
    rw [step_ask hlives (awake_of_step hlives hstep) hroutine nofun] at hstep
    have hmap : m' = (m.openFile p path access mode).2.resume p.pid
        (next (m.openFile p path access mode).1) := (Option.some.inj hstep).symm
    rw [hmap, openFile_of_error hfails, hfails]
  have hthere' : m'.process? ⟨Int32.ofInt start.nextPid⟩ =
      some { p with routine := next (.error reason) } := by
    rw [hafter, ← hid]
    exact process?_resume_of (process?_pid hthere) rfl
  rw [hroutine] at hwary hprepares
  obtain ⟨p', hp', -, hgives⟩ := routine_throughout Routine.GivesUp
    (fun hgives answer => hgives.answered answer) hlater hthere'
    ⟨through, hprepares.arranged rfl _⟩ (hwary.turnedDown reason)
  refine ⟨?_, p', hp', hgives, not_becomes_of_givesUp hgives⟩
  rw [hafter]
  rfl

end Machine

end Conch
