import Conch.Proofs.Machine.Waiting
import Conch.Proofs.Machine.Wariness

/-!
# How a child opens its targets

A child opens the targets of its redirections by requests to the system, the input first, and what
comes of that is what comes of opening them on the files alone: if they can be opened the child goes
on with them (`goes_targets`), and if not the files are as they were, and the child has failed
(`goes_failing`).
-/

namespace Conch

/-! ## One target -/

namespace Redirects

/-- Open the file of a target. -/
def openTo (direction : Direction) (files : FileTree) (here : FileId) (mask : Nat) (path : Text) :
    Except IoError (FileId × FileTree) :=
  match direction with
  | .input => (files.openInput here path).map fun file => (file, files)
  | .output => files.openOutput here (FileTree.masked FileTree.outputMode mask) path

/-- Open a target, if there is one. -/
def openFor (direction : Direction) (files : FileTree) (here : FileId) (mask : Nat)
    (target : Option Text) : Except ShellError (Option FileId × FileTree) :=
  match target with
  | none => .ok (none, files)
  | some path =>
    match openTo direction files here mask path with
    | .ok (file, files) => .ok (some file, files)
    | .error reason => .error (.cannotOpen path direction reason)

variable {r : Redirects} {files : FileTree} {here : FileId} {mask : Nat}

/-- To open an input changes no files, whether there is a target or not. -/
theorem files_openFor_input {target : Option Text} {file? : Option FileId} {after : FileTree}
    (h : openFor .input files here mask target = .ok (file?, after)) : after = files := by
  cases target with
  | none => exact (Prod.mk.inj (Except.ok.inj h)).2.symm
  | some path =>
      unfold openFor openTo at h
      cases hopen : files.openInput here path with
      | error reason =>
          simp only [hopen] at h
          exact nomatch h
      | ok file =>
          simp only [hopen] at h
          exact (Prod.mk.inj (Except.ok.inj h)).2.symm

/-- The targets are opened one after the other, and the files are those after the second one. -/
theorem openTargets_eq : r.openTargets files here mask =
    match openFor .input files here mask r.input with
    | .error e => .error e
    | .ok (input, files) =>
      match openFor .output files here mask r.output with
      | .error e => .error e
      | .ok (output, files) => .ok { input, output, files } := by
  have hinput : openFor .input files here mask r.input =
      (r.openInput files here).map fun input => (input, files) := by
    unfold openInput openFor openTo
    cases r.input with
    | none => rfl
    | some path => cases hopen : files.openInput here path <;> simp only [hopen] <;> rfl
  have houtput : openFor .output files here mask r.output = r.openOutput files here mask := rfl
  unfold openTargets
  rw [hinput]
  cases r.openInput files here with
  | error e => rfl
  | ok input =>
      rw [← houtput]
      rfl

end Redirects

namespace Machine

variable {m m' m'' : Machine} {p p' p'' : Process} {pid : ProcessId} {e : ShellError}
  {files files' : FileTree} {direction : Direction} {target : Option Text}
  {next : Option Nat → Task Nat} {goal : Machine → Bool}

/-- What is noted about a target that has been opened. -/
def targetOpening (direction : Direction) (file : FileId) : Opening where
  endpoint := .file file
  reads := direction = .input
  writes := direction = .output

/-- A target is opened on the machine as it is on the files. -/
theorem openFile_target (direction : Direction) {path : Text}
    (h : m.files.Ordinary p.directory path) :
    m.openFile p path (accessFor direction) FileTree.outputMode =
      match Redirects.openTo direction m.files p.directory p.mask path with
      | .error reason => (.error reason, m)
      | .ok (file, files) => opensAs { m with files } p (targetOpening direction file) := by
  cases direction with
  | input =>
      rw [accessFor, openFile_read h, Redirects.openTo]
      cases m.files.openInput p.directory path <;> rfl
  | output =>
      rw [accessFor, openFile_write h, Redirects.openTo]
      rfl

/-! ## Steps of a child -/

/-- The process is there, and it can go on. -/
structure Able (pid : ProcessId) (m : Machine) (p : Process) : Prop where
  there : m.process? pid = some p
  lives : p.doom = none
  awake : p.reception.stopped = false

/-- A process has arranged its descriptors, and nothing else has happened but that the files are
others now. -/
structure Arranged (pid : ProcessId) (m : Machine) (p : Process) (files : FileTree) (m' : Machine)
    (p' : Process) : Prop where
  able : Able pid m' p'
  same : m' = { m with files, openings := m'.openings, running := m'.running }
  openings : ∃ more, m'.openings = m.openings ++ more
  parent : p'.parent = p.parent
  directory : p'.directory = p.directory
  mask : p'.mask = p.mask
  descriptors : ∀ number index, p.opening? number = some index → p'.opening? number = some index

theorem Able.identity (h : Able pid m p) : p.pid = pid :=
  pid_of_process? h.there

theorem Arranged.refl (h : Able pid m p) : Arranged pid m p m.files m p :=
  ⟨h, rfl, ⟨#[], Array.append_empty.symm⟩, rfl, rfl, rfl, fun _ _ => id⟩

/-- **What is arranged in two parts is arranged**: the openings and descriptors of the first part
stand when the second is done. -/
theorem Arranged.trans (h : Arranged pid m p files m' p') (h' : Arranged pid m' p' files' m'' p'') :
    Arranged pid m p files' m'' p'' := by
  refine ⟨h'.able, ?_, ?_, h'.parent.trans h.parent, h'.directory.trans h.directory,
    h'.mask.trans h.mask, fun number index hopen =>
      h'.descriptors number index (h.descriptors number index hopen)⟩
  · have hsame := h'.same
    rw [h.same] at hsame
    exact hsame
  · obtain ⟨more, hmore⟩ := h.openings
    obtain ⟨others, hothers⟩ := h'.openings
    exact ⟨more ++ others, by rw [hothers, hmore, Array.append_assoc]⟩

/-- What was open is still open as it was: arranging targets only adds openings. -/
theorem Arranged.opening {index : Nat} {opening : Opening}
    (h : Arranged pid m p files m' p') (hopening : m.openings[index]? = some opening) :
    m'.openings[index]? = some opening := by
  obtain ⟨more, hmore⟩ := h.openings
  obtain ⟨hbound, -⟩ := Array.getElem?_eq_some_iff.mp hopening
  rw [hmore, Array.getElem?_append_left hbound]
  exact hopening

/-- While a process arranges its targets no child ends and no signal comes in, so nobody is kept
from waiting. -/
theorem Arranged.ahead (h : Arranged pid m p files m' p') (hahead : Ahead goal m) :
    Ahead goal m' := by
  rw [h.same]
  exact hahead.of_same rfl rfl

/-- A process that is able goes on when it is answered. -/
theorem goes_ask {request : Request} {next : request.Answer → Routine} {answer : request.Answer}
    (h : Able pid m p) (hroutine : p.routine = .ask request next)
    (hplain : ∀ path words environment, request ≠ .become path words environment)
    (hanswer : m.answer p request = some (answer, m')) (hshort : goal m = false) :
    Goes goal pid 1 m (m'.resume pid (next answer)) := by
  have hstep := step_ask (m := m) h.lives h.awake hroutine hplain
  rw [hanswer, h.identity] at hstep
  exact .single hshort h.there hstep

/-- Where a process goes on it is as it was. -/
theorem Arranged.resume (h : Able pid m p) (routine : Routine) :
    Arranged pid m p m.files (m.resume pid routine) { p with routine } := by
  have hthere : (m.resume pid routine).process? pid = some { p with routine } := by
    rw [← h.identity]
    exact process?_resume_of (process?_pid h.there) rfl
  exact ⟨⟨hthere, h.lives, h.awake⟩, rfl, ⟨#[], Array.append_empty.symm⟩, rfl, rfl, rfl,
    fun _ _ => id⟩

/-- To open something for a process arranges just that, and gives the process a descriptor for
it. -/
theorem arranged_opensAs (h : Able pid m p) (files : FileTree) (opening : Opening) :
    Arranged pid m p files (opensAs { m with files } p opening).2
      (p.attach { number := p.freeNumber 0, opening := m.openings.size }) := by
  have hthere : (opensAs { m with files } p opening).2.process? pid =
      some (p.attach { number := p.freeNumber 0, opening := m.openings.size }) := by
    have hbefore : Machine.process? { m with files, openings := m.openings.push opening } p.pid =
        some p := process?_pid h.there
    rw [← h.identity]
    exact process?_setProcess_of hbefore rfl
  refine ⟨⟨hthere, h.lives, h.awake⟩, rfl, ⟨#[opening], Array.push_eq_append⟩, rfl, rfl, rfl,
    fun number index hopen => ?_⟩
  rw [Process.opening?_attach, if_neg]
  · exact hopen
  · rintro rfl
    rw [Process.opening?_freeNumber] at hopen
    exact nomatch hopen

/-- A descriptor refers to a target that has been opened, or there are neither. -/
inductive Refers (direction : Direction) (m : Machine) (p : Process) :
    Option Nat → Option FileId → Prop where
  | nothing : Refers direction m p none none
  | file {number index : Nat} {file : FileId} (hdescriptor : p.opening? number = some index)
      (hopening : m.openings[index]? = some (targetOpening direction file)) :
      Refers direction m p (some number) (some file)

/-- A descriptor that refers to the file of a target still does so when more has been arranged. -/
theorem Refers.arranged {number? : Option Nat} {file? : Option FileId}
    (h : Refers direction m p number? file?) (harranged : Arranged pid m p files m' p') :
    Refers direction m' p' number? file? := by
  cases h with
  | nothing => exact .nothing
  | @file number index file hdescriptor hopening =>
      exact .file (harranged.descriptors number index hdescriptor) (harranged.opening hopening)

/-- Who has opened a plain file need not wait for anybody to open it as well. -/
theorem answer_awaitPartner {number : Nat} {file : FileId}
    (h : Refers direction m p (some number) (some file)) :
    m.answer p (.awaitPartner number) = some (true, m) := by
  cases h with
  | @file _ index _ hdescriptor hopening =>
      have husable : m.usable? p number (fun _ => true) =
          some (index, targetOpening direction file) := by
        rw [usable?, hdescriptor, Option.bind_some, hopening]
        rfl
      rw [answer]
      split
      · next hnone =>
          rw [husable] at hnone
          cases hnone
      · next hsome =>
          obtain ⟨-, rfl⟩ := Prod.mk.inj (Option.some.inj (husable.symm.trans hsome))
          exact if_pos rfl

/-- A process that has opened a target goes on with it at once. -/
theorem goes_opening {path : Text} {access : Access} {mode number : Nat} {file : FileId}
    {answered : Except IoError Nat → Routine} {came : Bool → Routine} (h : Able pid m p)
    (hroutine : p.routine = .ask (.openFile path access mode) answered)
    (hopen : m.openFile p path access mode = (.ok number, m'))
    (hopens : Arranged pid m p files m' p')
    (hrefers : Refers direction m' p' (some number) (some file))
    (hawait : answered (.ok number) = .ask (.awaitPartner number) came)
    (hahead : Ahead goal m) :
    ∃ m'' p'', Goes goal pid 2 m m'' ∧ Arranged pid m p files m'' p'' ∧
      p''.routine = came true ∧ Refers direction m'' p'' (some number) (some file) := by
  have hfiles : m'.files = files := congrArg Machine.files hopens.same
  subst hfiles
  have hasks := goes_ask h hroutine nofun (congrArg some hopen) hahead.short
  have hgets := hopens.trans (.resume hopens.able (answered (.ok number)))
  have hkeeps := hrefers.arranged (.resume hopens.able (answered (.ok number)))
  have hwaits := goes_ask hgets.able hawait nofun (answer_awaitPartner hkeeps)
    (hgets.ahead hahead).short
  exact ⟨_, _, hasks.trans hwaits, hgets.trans (.resume hgets.able (came true)), rfl,
    hkeeps.arranged (.resume hgets.able (came true))⟩

/-- A child that gets its target goes on with it. -/
theorem goes_of_opened (h : Able pid m p)
    (hroutine : p.routine = Task.routine (withTarget direction target next))
    (hordinary : ∀ path, target = some path → m.files.Ordinary p.directory path)
    (hahead : Ahead goal m) {file? : Option FileId}
    (hopened : Redirects.openFor direction m.files p.directory p.mask target = .ok (file?, files)) :
    ∃ n m' p' number?, n ≤ 2 ∧ Goes goal pid n m m' ∧ Arranged pid m p files m' p' ∧
      p'.routine = Task.routine (next number?) ∧ Refers direction m' p' number? file? := by
  cases target with
  | none =>
      obtain ⟨rfl, rfl⟩ := Prod.mk.inj (Except.ok.inj hopened)
      exact ⟨0, m, p, none, by omega, .stay m, .refl h, hroutine, .nothing⟩
  | some path =>
      have hopen := openFile_target direction (hordinary path rfl)
      cases hto : Redirects.openTo direction m.files p.directory p.mask path with
      | error reason =>
          rw [Redirects.openFor, hto] at hopened
          exact nomatch hopened
      | ok opened =>
          obtain ⟨file, after⟩ := opened
          rw [Redirects.openFor, hto] at hopened
          obtain ⟨rfl, rfl⟩ := Prod.mk.inj (Except.ok.inj hopened)
          rw [hto] at hopen
          obtain ⟨answered, hask, -, hopened⟩ := routine_withTarget direction path next
          obtain ⟨came, hawait, hpartner, -⟩ := hopened (p.freeNumber 0)
          have hrefers : Refers direction (opensAs { m with files := after } p
              (targetOpening direction file)).2
              (p.attach { number := p.freeNumber 0, opening := m.openings.size })
              (some (p.freeNumber 0)) (some file) :=
            .file ((p.opening?_attach _ _).trans (if_pos rfl)) Array.getElem?_push_size
          obtain ⟨m', p', hgoes, harranged, hnext, hrefers⟩ := goes_opening h (hroutine.trans hask)
            hopen (arranged_opensAs h after _) hrefers hawait hahead
          exact ⟨2, m', p', some (p.freeNumber 0), Nat.le_refl 2, hgoes, harranged,
            hnext.trans hpartner, hrefers⟩

/-- A child that does not get its target has failed. -/
theorem goes_of_unopenable (h : Able pid m p)
    (hroutine : p.routine = Task.routine (withTarget direction target next))
    (hordinary : ∀ path, target = some path → m.files.Ordinary p.directory path)
    (hahead : Ahead goal m)
    (hfails : Redirects.openFor direction m.files p.directory p.mask target = .error e) :
    ∃ m' p', Goes goal pid 1 m m' ∧ Arranged pid m p m.files m' p' ∧
      p'.routine = Task.routine (childFailure e) := by
  cases target with
  | none => exact nomatch hfails
  | some path =>
      have hopen := openFile_target direction (hordinary path rfl)
      cases hto : Redirects.openTo direction m.files p.directory p.mask path with
      | ok opened =>
          rw [Redirects.openFor, hto] at hfails
          exact nomatch hfails
      | error reason =>
          rw [Redirects.openFor, hto] at hfails
          obtain rfl := Except.error.inj hfails
          rw [hto] at hopen
          obtain ⟨answered, hask, hturned, -⟩ := routine_withTarget direction path next
          have hgoes := goes_ask h (hroutine.trans hask) nofun (congrArg some hopen) hahead.short
          exact ⟨_, _, hgoes, .resume h _, hturned reason⟩

/-! ## Both targets -/

/-- What a child does once its targets are open. -/
def takeOver (command : Command) (environment : List (Text × Text)) (input output : Option Nat) :
    Task Nat := do
  connect input Task.input
  connect output Task.output
  Task.ask .unblock
  let errno ← Task.become command.argv environment
  childFailure (.cannotRun (command.argv.headD []) errno)

/-- A child opens its input, then its output, and then becomes its command; each step is told what
the one before has opened. -/
theorem childTask_eq (command : Command) (environment : List (Text × Text)) :
    childTask command environment =
      withTarget .input command.redirects.input fun input =>
        withTarget .output command.redirects.output fun output =>
          takeOver command environment input output :=
  rfl

section Targets

variable {r : Redirects} {rest : Option Nat → Option Nat → Task Nat}

/-- The targets of redirections are ordinary, if there are any. -/
structure OrdinaryTargets (r : Redirects) (files : FileTree) (here : FileId) : Prop where
  input : ∀ path, r.input = some path → files.Ordinary here path
  output : ∀ path, r.output = some path → files.Ordinary here path

variable (h : Able pid m p)
  (hroutine : p.routine = Task.routine (withTarget .input r.input fun input =>
    withTarget .output r.output fun output => rest input output))
  (hordinary : OrdinaryTargets r m.files p.directory) (hahead : Ahead goal m)

include h hroutine hordinary hahead

/-- **What becomes of the targets on the machine is what becomes of them on the files.** -/
theorem goes_targets {opened : Redirects.Opened}
    (hopened : r.openTargets m.files p.directory p.mask = .ok opened) :
    ∃ n m' p' input output, n ≤ 4 ∧ Goes goal pid n m m' ∧
      Arranged pid m p opened.files m' p' ∧ p'.routine = Task.routine (rest input output) ∧
      Refers .input m' p' input opened.input ∧ Refers .output m' p' output opened.output := by
  rw [Redirects.openTargets_eq] at hopened
  split at hopened
  · exact nomatch hopened
  next source files hsource =>
    have hfiles : files = m.files := Redirects.files_openFor_input hsource
    split at hopened
    · exact nomatch hopened
    next sink after hsink =>
      obtain rfl := Except.ok.inj hopened
      obtain ⟨n, mid, q, input, hn, hfirst, harranged, hnext, hinput⟩ :=
        goes_of_opened h hroutine hordinary.input hahead hsource
      have hmid : mid.files = m.files := (congrArg Machine.files harranged.same).trans hfiles
      rw [hfiles, ← hmid, ← harranged.directory, ← harranged.mask] at hsink
      obtain ⟨k, m', p', output, hk, hsecond, harranged', hrest, houtput⟩ :=
        goes_of_opened harranged.able hnext
          (by rw [hmid, harranged.directory]; exact hordinary.output)
          (harranged.ahead hahead) hsink
      exact ⟨n + k, m', p', input, output, by omega, hfirst.trans hsecond,
        harranged.trans harranged', hrest, hinput.arranged harranged', houtput⟩

/-- If one of them cannot be opened the files stay as they are, and the child has failed. -/
theorem goes_failing (hfails : r.openTargets m.files p.directory p.mask = .error e) :
    ∃ n m' p', n ≤ 3 ∧ Goes goal pid n m m' ∧ Arranged pid m p m.files m' p' ∧
      p'.routine = Task.routine (childFailure e) := by
  rw [Redirects.openTargets_eq] at hfails
  split at hfails
  · next why hwhy =>
      obtain rfl := Except.error.inj hfails
      obtain ⟨m', p', hgoes, harranged, hfailed⟩ :=
        goes_of_unopenable h hroutine hordinary.input hahead hwhy
      exact ⟨1, m', p', by omega, hgoes, harranged, hfailed⟩
  next source files hsource =>
    have hfiles : files = m.files := Redirects.files_openFor_input hsource
    split at hfails
    · next why hwhy =>
        obtain rfl := Except.error.inj hfails
        obtain ⟨n, mid, q, input, hn, hfirst, harranged, hnext, -⟩ :=
          goes_of_opened h hroutine hordinary.input hahead hsource
        have hmid : mid.files = m.files := (congrArg Machine.files harranged.same).trans hfiles
        rw [hfiles, ← hmid, ← harranged.directory, ← harranged.mask] at hwhy
        obtain ⟨m', p', hsecond, harranged', hfailed⟩ :=
          goes_of_unopenable harranged.able hnext
            (by rw [hmid, harranged.directory]; exact hordinary.output)
            (harranged.ahead hahead) hwhy
        rw [hmid] at harranged'
        exact ⟨n + 1, m', p', by omega, hfirst.trans hsecond, harranged.trans harranged', hfailed⟩
    · exact nomatch hfails

end Targets

end Machine

end Conch
