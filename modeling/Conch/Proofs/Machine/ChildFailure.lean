import Conch.Proofs.Jobs.Children
import Conch.Proofs.Machine.ChildTargets

/-!
# The end of a child that has failed

A child whose targets cannot be opened reports this on its standard error and leaves with exit code
1.  It needs only a few steps for that, so nobody else goes on while the shell waits for it, and the
report is all that is left of it (`wait_failing`).
-/

namespace Conch.Machine

variable {m m' : Machine} {p p' : Process} {pid : ProcessId} {e : ShellError} {files : FileTree}
  {goal : Machine → Bool}

/-- What the process writes to its standard error is what the shell's user sees. -/
def Heard (m : Machine) (p : Process) : Prop :=
  ∃ index opening, p.opening? Task.errors = some index ∧ m.openings[index]? = some opening ∧
    opening.endpoint = .errors ∧ opening.writes = true

/-- What a process writes to standard error is still seen after it has arranged its targets. -/
theorem Heard.arranged (h : Heard m p) (harranged : Arranged pid m p files m' p') :
    Heard m' p' := by
  obtain ⟨index, opening, hdescriptor, hopening, hopen⟩ := h
  exact ⟨index, opening, harranged.descriptors _ _ hdescriptor, harranged.opening hopening, hopen⟩

/-- A process whose standard error is open writes all bytes there at once, behind what has been
written already. -/
theorem answer_write (h : Heard m p) (bytes : List UInt8) :
    m.answer p (.write Task.errors bytes) =
      some (.ok (), { m with errors := m.errors ++ bytes }) := by
  obtain ⟨index, opening, hdescriptor, hopening, hendpoint, hwrites⟩ := h
  have husable : m.usable? p Task.errors Opening.writes = some (index, opening) := by
    rw [usable?, hdescriptor, Option.bind_some, hopening, Option.filter_some, if_pos hwrites]
    rfl
  rw [answer, writeBytes, husable]
  dsimp only
  rw [hendpoint]
  rfl

/-- A child that has failed writes its report and leaves, which takes it two steps, and then the
shell can collect it. -/
theorem goes_childFailure (h : Able pid m p) (hheard : Heard m p)
    (hroutine : p.routine = Task.routine (childFailure e)) (hparent : p.parent = m.shellPid)
    (hahead : Ahead goal m) : ∃ running, Goes goal pid 2 m { m with
      errors := m.errors ++ complaint e
      children := m.children.finish pid (.exited 1)
      running } := by
  rw [routine_childFailure] at hroutine
  have hreports := goes_ask h hroutine nofun (answer_write hheard _) hahead.short
  let reported : Machine := { m with errors := m.errors ++ complaint e }
  let last : Process := { p with routine := .done 1 }
  have hthere : Able pid reported p := ⟨h.there, h.lives, h.awake⟩
  have hable := (Arranged.resume hthere (.done 1)).able
  have hleaves : (reported.resume pid (.done 1)).step last =
      some ((reported.resume pid (.done 1)).retire last (.exited 1)) := by
    unfold step
    rw [hable.lives, hable.awake]
    rfl
  have hchildren : ((reported.resume pid (.done 1)).retire last (.exited 1)).children =
      m.children.finish pid (.exited 1) := by
    rw [← hable.identity]
    exact if_pos hparent
  have hgoes := hreports.trans (.single (hahead _ rfl rfl) hable.there hleaves)
  refine ⟨((reported.resume pid (.done 1)).retire last (.exited 1)).running, ?_⟩
  rw [← hchildren]
  exact hgoes

/-- A machine on which a new child gets a process id of its own, which no process and no child of
the shell has, and on which standard error is open, so that what children write to it is seen. -/
structure Serviceable (m : Machine) : Prop where
  fresh : m.process? ⟨Int32.ofInt m.nextPid⟩ = none
  unused : m.children.status? ⟨Int32.ofInt m.nextPid⟩ = none
  heard : ∃ opening, m.openings[Task.errors]? = some opening ∧ opening.endpoint = .errors ∧
    opening.writes = true

/-- A child has come and gone, and all that is left of it is what it wrote about an error.  Nothing
else is touched, though signals may have been taken in: what was open is open as before, the shell
has the children that it had, and other processes are where they were. -/
structure OnlyComplains (e : ShellError) (pid : ProcessId) (m m' : Machine) : Prop where
  same : ∃ openings clock children running nextPid inbox, m' = { m with
    errors := m.errors ++ complaint e, openings, clock, children, running, nextPid, inbox }
  openings : ∃ more, m'.openings = m.openings ++ more
  children : ∀ other, m'.children.status? other = m.children.status? other
  others : ∀ other ≠ pid, Spares other m m'

/-- The machine once the shell has taken in the signals that have arrived. -/
def cleared (m : Machine) : Machine :=
  { m with inbox := [] }

/-- Where no signal is on its way to the shell there is nothing to be taken in. -/
theorem cleared_of_empty (h : m.inbox = []) : m.cleared = m := by
  obtain ⟨⟩ := m
  subst h
  rfl

/-- To take in signals does not hinder the machine from serving a new child. -/
theorem Serviceable.cleared (h : m.Serviceable) : m.cleared.Serviceable :=
  ⟨h.fresh, h.unused, h.heard⟩

/-- Whether signals are taken in before or after the child has come and gone does not matter. -/
theorem OnlyComplains.cleared (h : OnlyComplains e pid m.cleared m') :
    OnlyComplains e pid m m'.cleared := by
  obtain ⟨openings, clock, children, running, nextPid, inbox, hsame⟩ := h.same
  refine ⟨⟨openings, clock, children, running, nextPid, [], ?_⟩, h.openings, h.children,
    fun other hother => ?_⟩
  · rw [hsame]
    rfl
  · have hspared : Spares other m m' := h.others other hother
    exact hspared.trans (spares_of_running rfl)

/-- The shell waits for a child whose targets cannot be opened. -/
theorem awaitEnd_failing {command : Command} {environment : List (Text × Text)}
    (h : Able pid m p) (hheard : Heard m p) (hparent : p.parent = m.shellPid)
    (hroutine : p.routine = Task.routine (childTask command environment))
    (hordinary : OrdinaryTargets command.redirects m.files p.directory)
    (hfails : command.redirects.openTargets m.files p.directory p.mask = .error e)
    (hruns : m.children.status? pid = some none) (hinbox : m.inbox = []) :
    ∃ openings running clock, m.awaitEnd pid = { m with
        errors := m.errors ++ complaint e
        children := m.children.finish pid (.exited 1)
        openings, running, clock } ∧
      (∃ more, openings = m.openings ++ more) ∧
        ∀ other ≠ pid, Spares other m (m.awaitEnd pid) := by
  have hahead := ahead_isOver hruns hinbox
  obtain ⟨n, failed, q, hn, hfailing, harranged, hfailed⟩ :=
    goes_failing h (hroutine.trans (congrArg Task.routine (childTask_eq _ _))) hordinary hahead
      hfails
  obtain ⟨openings, others, hsame⟩ : ∃ openings running, failed = { m with openings, running } :=
    ⟨_, _, harranged.same⟩
  have hmore := harranged.openings
  subst hsame
  obtain ⟨running, hreporting⟩ := goes_childFailure harranged.able (hheard.arranged harranged)
    hfailed (harranged.parent.trans hparent) (harranged.ahead hahead)
  have hgoes := hfailing.trans hreporting
  have hended : (m.children.finish pid (.exited 1)).status? pid = some (some (.exited 1)) := by
    rw [Children.status?_finish, if_pos ⟨rfl, hruns⟩]
  have hawait := awaitEnd_of_goes hgoes (by omega) (by rw [slice]; omega)
    (by rw [hasEnded, hended])
  rw [hawait]
  refine ⟨openings, running, _, rfl, hmore, fun other hother => ?_⟩
  exact (spares_goes hgoes hother).trans (spares_of_running rfl)

/-- A child that has ended by the time is collected. -/
theorem wait_of_ended {cause : Completion} (hawait : m.awaitEnd pid = m')
    (hended : m'.children.status? pid = some (some cause)) :
    wait pid m = ([cause.answer pid], { m' with children := m'.children.collect pid }) := by
  have hanswer : cause.answer pid ≠ .stillAlive := by
    unfold Completion.answer
    cases cause with
    | exited code => exact nofun
    | killed signal =>
        dsimp only
        split <;> exact nofun
  rw [wait, hawait, poll, Children.poll_of_ended _ _ hended]
  dsimp only
  rw [if_neg hanswer]

/-- **A child that cannot open its targets exits with code 1**, and only complains. -/
theorem wait_failing (launch : Launch) (h : m.Serviceable) (hinbox : m.inbox = [])
    (hfront : launch.command.background = false)
    (hordinary : OrdinaryTargets launch.command.redirects m.files m.directory)
    (hfails : launch.command.redirects.openTargets m.files m.directory m.mask = .error e) :
    ∃ m', wait ⟨Int32.ofInt m.nextPid⟩ (createChild launch m).2 =
        ([.exited ⟨Int32.ofInt m.nextPid⟩ 1], m') ∧
      OnlyComplains e ⟨Int32.ofInt m.nextPid⟩ m m' ∧ m'.inbox = [] := by
  let pid : ProcessId := ⟨Int32.ofInt m.nextPid⟩
  have hbackground : (createChild launch m).2.background = m.background := by
    have hadded : (createChild launch m).2.background =
      m.background ++ (if launch.command.background then [pid] else []) := rfl
    rw [hadded, hfront, if_neg Bool.false_ne_true, List.append_nil]
  have hheard : Heard (createChild launch m).2 (newborn launch m) := by
    obtain ⟨opening, hopening, hopen⟩ := h.heard
    exact ⟨Task.errors, opening, rfl, hopening, hopen⟩
  have hruns : (createChild launch m).2.children.status? pid = some none := by
    have hspawn := m.children.status?_spawn pid h.unused pid
    rwa [if_pos rfl] at hspawn
  obtain ⟨openings, running, clock, hawait, hmore, hothers⟩ := awaitEnd_failing
    ⟨process?_newborn launch h.fresh, rfl, rfl⟩ hheard rfl rfl hordinary hfails hruns hinbox
  rw [hbackground] at hawait
  have hended : ((createChild launch m).2.children.finish pid (.exited 1)).status? pid =
      some (some (.exited 1)) := by
    rw [Children.status?_finish, if_pos ⟨rfl, hruns⟩]
  refine ⟨{ m with
    errors := m.errors ++ complaint e
    children := ((m.children.spawn pid).finish pid (.exited 1)).collect pid
    nextPid := m.nextPid + 1
    openings, running, clock }, ?_, ⟨⟨openings, clock, _, running, _, _, rfl⟩, hmore, ?_, ?_⟩,
    hinbox⟩
  · rw [wait_of_ended hawait hended]
    rfl
  · intro other
    change (((m.children.spawn pid).finish pid (.exited 1)).collect pid).status? other = _
    rw [Children.status?_collect, Children.status?_finish]
    by_cases hother : other = pid
    · rw [if_pos hother, hother]
      exact h.unused.symm
    · rw [if_neg hother, if_neg (fun hboth => hother hboth.1), Children.status?_spawn _ _ h.unused,
        if_neg hother]
  · intro other hother
    have hspared : Spares other m (createChild launch m).2 := spares_of_append rfl
    have hwaited := hspared.trans (hothers other hother)
    rw [hawait] at hwaited
    exact hwaited.trans (spares_of_running rfl)

end Conch.Machine
