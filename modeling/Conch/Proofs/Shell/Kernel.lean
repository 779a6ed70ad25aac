import Conch.Proofs.Jobs.Children
import Conch.Proofs.Shell.Session

/-!
# Hosts that keep children

A `Kernel` says of a host which children it keeps, and that its services treat them as the system
does: a process that is created gets a number that no uncollected child has; a child that is waited
for or asked about is collected by the answer that it has ended; everything else leaves the children
as they are.  Running children may end at any time, also while a service is used (`Later`), so a
kernel allows every interleaving of the ends of children with what the shell does.

The steps of a shell are looked at from there: `later_of_quiet`, `born_of_forks`, `gone_of_waits`,
and `told_of_sweep`, which says for each job of a sweep what became of its process by the answer.
-/

namespace Conch

/-- What becomes of the state of a process while nobody asks about it: it may end. -/
def Ages (before after : Option (Option Completion)) : Prop :=
  after = before ∨ (before = some none ∧ ∃ cause, after = some (some cause))

section Ages

variable {a b c : Option (Option Completion)}

theorem ages_refl (a : Option (Option Completion)) : Ages a a :=
  .inl rfl

theorem ages_trans (h : Ages a b) (h' : Ages b c) : Ages a c := by
  rcases h with rfl | ⟨hruns, cause, rfl⟩
  · exact h'
  · rcases h' with rfl | ⟨hruns', -⟩
    · exact .inr ⟨hruns, cause, rfl⟩
    · exact nomatch hruns'

/-- Nobody becomes a child by waiting, or ceases to be one. -/
theorem eq_none_iff_of_ages (h : Ages a b) : b = none ↔ a = none := by
  rcases h with rfl | ⟨rfl, cause, rfl⟩
  · exact Iff.rfl
  · simp

end Ages

namespace Children

/-- The children later on, when some that were running have ended. -/
def Later (cs cs' : Children) : Prop :=
  ∀ pid, Ages (cs.status? pid) (cs'.status? pid)

theorem later_refl (cs : Children) : cs.Later cs :=
  fun _ => ages_refl _

theorem Later.trans {cs cs' cs'' : Children} (h : cs.Later cs') (h' : cs'.Later cs'') :
    cs.Later cs'' :=
  fun pid => ages_trans (h pid) (h' pid)

/-- What the system answers about a process by its state. -/
def answerTo (pid : ProcessId) : Option (Option Completion) → WaitAnswer
  | some (some cause) => cause.answer pid
  | some none => .stillAlive
  | none => strangerAnswer pid

/-- The answer about a child is decided by what is known of it: whether it runs, has ended, or is
none. -/
theorem poll_fst (cs : Children) (pid : ProcessId) :
    (poll pid cs).1 = answerTo pid (cs.status? pid) := by
  unfold poll
  rcases cs.status? pid with _ | _ | cause <;> rfl

/-- What comes of waiting for a child: it is collected by an answer that tells its end, after any
number of answers that do not, or it never ends. -/
inductive Awaited (pid : ProcessId) (cs : Children) : List WaitAnswer → Children → Prop where
  | told {before : List WaitAnswer} {cause : Completion} {mid cs' : Children}
      (hbefore : ∀ answer ∈ before, answer.Transient) (hlater : cs.Later mid)
      (hended : mid.status? pid = some (some cause)) (hafter : (mid.collect pid).Later cs') :
      Awaited pid cs (before ++ [cause.answer pid]) cs'
  | never {answers : List WaitAnswer} {cs' : Children}
      (hanswers : ∀ answer ∈ answers, answer.Transient) : Awaited pid cs answers cs'

end Children

/-- The services of a host treat the children that it keeps as the system does.  None of them loses
a child or makes one up.  If no process is created nothing has changed, and a new process gets a
number that no uncollected child has; a child that is asked about is collected if it has ended, and
one that is waited for when it has. -/
structure Kernel {σ : Type} (H : Host σ) where
  children : σ → Children
  print : ∀ text world, (children world).Later (children (H.print text world))
  printError : ∀ text world, (children world).Later (children (H.printError text world))
  arrivals : ∀ world, (children world).Later (children (H.arrivals world).2)
  terminate : ∀ pid world, (children world).Later (children (H.terminate pid world).2)
  terminateGroup : ∀ world, (children world).Later (children (H.terminateGroup world))
  changeDirectory : ∀ path world world', H.changeDirectory path world = .ok world' →
    (children world).Later (children world')
  exportDirectories : ∀ previous current world,
    (children world).Later (children (H.exportDirectories previous current world))
  forkFails : ∀ launch world, (H.fork launch world).1 = none →
    (children world).Later (children (H.fork launch world).2)
  fork : ∀ launch world pid, (H.fork launch world).1 = some pid →
    (children world).status? pid = none ∧
      ((children world).spawn pid).Later (children (H.fork launch world).2)
  poll : ∀ pid world, ∃ mid, (children world).Later mid ∧
    (H.poll pid world).1 = (mid.poll pid).1 ∧ (mid.poll pid).2.Later (children (H.poll pid world).2)
  wait : ∀ pid world, (children world).status? pid ≠ none →
    Children.Awaited pid (children world) (H.wait pid world).1 (children (H.wait pid world).2)

namespace Kernel

variable {σ : Type} {H : Host σ} (K : Kernel H)

/-- Recording does not change who is a child. -/
def recorded : Kernel H.recorded where
  children r := K.children r.world
  print text r := K.print text r.world
  printError text r := K.printError text r.world
  arrivals r := K.arrivals r.world
  terminate pid r := K.terminate pid r.world
  terminateGroup r := K.terminateGroup r.world
  changeDirectory path r r' hmove := by
    have hnoted : H.recorded.changeDirectory path r =
        (H.changeDirectory path r.world).map (r.note (.moved path)) := rfl
    rw [hnoted] at hmove
    cases hplain : H.changeDirectory path r.world with
    | error reason =>
        rw [hplain] at hmove
        exact nomatch hmove
    | ok world =>
        rw [hplain] at hmove
        obtain rfl := Except.ok.inj hmove
        exact K.changeDirectory path r.world world hplain
  exportDirectories previous current r := K.exportDirectories previous current r.world
  forkFails launch r := K.forkFails launch r.world
  fork launch r := K.fork launch r.world
  poll pid r := K.poll pid r.world
  wait pid r := K.wait pid r.world

/-- The state of a process, to a shell. -/
def status? (sh : Shell σ) (pid : ProcessId) : Option (Option Completion) :=
  (K.children sh.world).status? pid

end Kernel

namespace Shell

variable {σ : Type} {H : Host σ} (K : Kernel H) {sh mid sh' : Shell σ} {pid : ProcessId}

/-- The children are the same, but for those that have ended. -/
def Aged (sh sh' : Shell σ) : Prop :=
  (K.children sh.world).Later (K.children sh'.world)

theorem aged_refl (sh : Shell σ) : Aged K sh sh :=
  Children.later_refl _

/-- A quiet step may give children the time to end, and does nothing else to them. -/
theorem later_of_quietStep (h : QuietStep H sh sh') : Aged K sh sh' := by
  cases h with
  | signals signals => exact aged_refl K sh
  | memory interpreter hstatus => exact aged_refl K sh
  | print text hother => exact K.print text sh.world
  | complain text => exact K.printError text sh.world
  | hear => exact K.arrivals sh.world
  | dismiss pid => exact K.terminate pid sh.world
  | dismissGroup => exact K.terminateGroup sh.world
  | move path hmove => exact K.changeDirectory path sh.world _ hmove
  | tell previous current => exact K.exportDirectories previous current sh.world

/-- **Quiet steps do nothing to children** but to give them the time to end. -/
theorem later_of_quiet (h : Quiet H sh sh') : Aged K sh sh' := by
  induction h with
  | refl => exact aged_refl K sh
  | tail _ hstep ih => exact ih.trans (later_of_quietStep K hstep)

/-- To print lines may give children the time to end, and does nothing else to them. -/
theorem later_printAll (lines : List String) (world : σ) :
    (K.children world).Later (K.children (printAll H lines world)) := by
  induction lines generalizing world with
  | nil => exact Children.later_refl _
  | cons line lines ih => exact (K.print line world).trans (ih (H.print line world))

/-! ## Processes that come and go -/

/-- If no process has come of it, the creation has done nothing to children but give them time. -/
theorem later_of_forks {command : Command} (h : Forks H command sh none sh') :
    Aged K sh sh' := by
  obtain ⟨launch, begun, -, hbefore, hfork, hafter⟩ := h
  have hforked := K.forkFails launch begun.world hfork
  exact ((later_of_quiet K hbefore).trans hforked).trans (later_of_quiet K hafter)

/-- **A new process** was no child before, is one now, and no other process has become one. -/
theorem born_of_forks {command : Command} (h : Forks H command sh (some pid) sh') :
    K.status? sh pid = none ∧ K.status? sh' pid ≠ none ∧
      ∀ other ≠ pid, Ages (K.status? sh other) (K.status? sh' other) := by
  obtain ⟨launch, begun, -, hbefore, hfork, hafter⟩ := h
  obtain ⟨hnew, hborn⟩ := K.fork launch begun.world pid hfork
  have hbegun := later_of_quiet K hbefore
  have hdone := hborn.trans (later_of_quiet K hafter)
  have hspawned := Children.status?_spawn (K.children begun.world) pid hnew
  refine ⟨(eq_none_iff_of_ages (hbegun pid)).mp hnew, fun hgone => ?_, fun other hother => ?_⟩
  · have hnone := (eq_none_iff_of_ages (hdone pid)).mp hgone
    rw [hspawned, if_pos rfl] at hnone
    exact nomatch hnone
  · have hthis := hdone other
    rw [hspawned, if_neg hother] at hthis
    exact ages_trans (hbegun other) hthis

/-- **A child that was waited for** is none any more, and no other process has become one. -/
theorem gone_of_waits {answers : List WaitAnswer} {result : Except Errno Completion}
    (h : Waits H pid sh answers sh') (hchild : K.status? sh pid ≠ none)
    (hresult : conclusion? answers = some result) :
    K.status? sh' pid = none ∧
      ∀ other ≠ pid, Ages (K.status? sh other) (K.status? sh' other) := by
  obtain ⟨begun, hbefore, rfl, hafter⟩ := h
  have hbegun := later_of_quiet K hbefore
  have hdone := later_of_quiet K hafter
  have hstill : (K.children begun.world).status? pid ≠ none := fun hnone =>
    hchild ((eq_none_iff_of_ages (hbegun pid)).mp hnone)
  generalize hanswers : (H.wait pid begun.world).1 = answers at hresult
  have hawaited := K.wait pid begun.world hstill
  rw [hanswers] at hawaited
  cases hawaited with
  | never htransient =>
      -- answers that tell no end come to no result
      have hnothing := conclusion?_append htransient []
      rw [List.append_nil, hresult] at hnothing
      exact nomatch hnothing
  | @told before cause mid _ hbefore hlater hended hcollected =>
      have hafter := hcollected.trans hdone
      have hstatus := Children.status?_collect mid pid
      refine ⟨?_, fun other hother => ?_⟩
      · have hnone : (mid.collect pid).status? pid = none := by rw [hstatus, if_pos rfl]
        exact (eq_none_iff_of_ages (hafter pid)).mpr hnone
      · have hthis := hafter other
        rw [hstatus, if_neg hother] at hthis
        exact ages_trans (hbegun other) (ages_trans (hlater other) hthis)

/-! ## Sweeps -/

/-- What became of a process that was asked about: it may have ended before it was asked about, and
if so it was collected. -/
def Told (pid : ProcessId) (answer : WaitAnswer) (before after : Option (Option Completion)) :
    Prop :=
  ∃ status, Ages before status ∧ answer = Children.answerTo pid status ∧
    Ages (Children.onceAsked status) after

/-- What a host answers about a child is what the child was at that moment, and it is collected if
it had ended. -/
theorem told_of_poll (pid : ProcessId) (world : σ) :
    Told pid (H.poll pid world).1 ((K.children world).status? pid)
      ((K.children (H.poll pid world).2).status? pid) := by
  obtain ⟨mid, hbefore, hanswer, hafter⟩ := K.poll pid world
  have hthis := hafter pid
  rw [Children.status?_poll, if_pos rfl] at hthis
  exact ⟨mid.status? pid, hbefore pid, hanswer.trans (Children.poll_fst mid pid), hthis⟩

/-- A child that is not asked about is not collected. -/
theorem ages_of_poll (pid : ProcessId) (world : σ) {other : ProcessId} (hother : other ≠ pid) :
    Ages ((K.children world).status? other)
      ((K.children (H.poll pid world).2).status? other) := by
  obtain ⟨mid, hbefore, -, hafter⟩ := K.poll pid world
  have hthis := hafter other
  rw [Children.status?_poll, if_neg hother] at hthis
  exact ages_trans (hbefore other) hthis

/-- A sweep collects no child that it does not ask about. -/
theorem ages_of_sweep {jobs : List Job} {world : σ} {other : ProcessId}
    (hother : other ∉ jobs.map Job.pid) :
    Ages ((K.children world).status? other)
      ((K.children (JobTable.sweepJobs H.poll jobs world).world).status? other) := by
  induction jobs generalizing world with
  | nil => exact ages_refl _
  | cons job jobs ih =>
      rw [List.map_cons, List.mem_cons, not_or] at hother
      rw [JobTable.world_sweepJobs_cons]
      exact ages_trans (ages_of_poll K job.pid world hother.1) (ih hother.2)

/-- **What became of each process of a sweep**: it was told what it was when it was asked about, and
was collected if it had ended, though others were asked about before and after. -/
theorem told_of_sweep {jobs : List Job} (hdistinct : (jobs.map Job.pid).Nodup) {world : σ}
    {asked : Job × WaitAnswer} (hasked : asked ∈ JobTable.consult H.poll jobs world) :
    Told asked.1.pid asked.2 ((K.children world).status? asked.1.pid)
      ((K.children (JobTable.sweepJobs H.poll jobs world).world).status? asked.1.pid) := by
  induction jobs generalizing world with
  | nil => exact nomatch hasked
  | cons job jobs ih =>
      rw [List.map_cons, List.nodup_cons] at hdistinct
      rw [JobTable.world_sweepJobs_cons]
      rcases List.mem_cons.mp hasked with rfl | hasked
      · -- this process is asked about first, and not again by the rest of the sweep
        obtain ⟨status, hbefore, hanswer, hafter⟩ := told_of_poll K job.pid world
        exact ⟨status, hbefore, hanswer, ages_trans hafter (ages_of_sweep K hdistinct.1)⟩
      · obtain ⟨status, hbefore, hanswer, hafter⟩ := ih hdistinct.2 hasked
        have hjob := JobTable.mem_of_mem_consult H.poll hasked
        have hne : asked.1.pid ≠ job.pid := fun heq =>
          hdistinct.1 (heq ▸ List.mem_map_of_mem hjob)
        exact ⟨status, ages_trans (ages_of_poll K job.pid world hne) hbefore, hanswer, hafter⟩

/-- A sweep makes nobody a child who was none before it. -/
theorem none_of_sweep {jobs : List Job} {world : σ}
    (hnone : (K.children world).status? pid = none) :
    (K.children (JobTable.sweepJobs H.poll jobs world).world).status? pid = none := by
  induction jobs generalizing world with
  | nil => exact hnone
  | cons job jobs ih =>
      rw [JobTable.world_sweepJobs_cons]
      apply ih
      by_cases hpid : pid = job.pid
      · obtain ⟨status, hbefore, -, hafter⟩ := told_of_poll K job.pid world
        rw [← hpid, hnone] at hbefore
        obtain rfl := (eq_none_iff_of_ages hbefore).mpr rfl
        rw [hpid]
        exact (eq_none_iff_of_ages hafter).mpr rfl
      · exact (eq_none_iff_of_ages (ages_of_poll K job.pid world hpid)).mpr hnone

/-- A notification is a sweep, as far as children go. -/
theorem later_notified (sh : Shell σ) :
    (K.children (JobTable.sweepJobs H.poll sh.jobs.jobs sh.world).world).Later
      (K.children (notified H sh).world) :=
  later_printAll K _ _

/-- Who is no child before a notification is none after it. -/
theorem none_of_notified (hnone : K.status? sh pid = none) :
    K.status? (notified H sh) pid = none :=
  (eq_none_iff_of_ages (later_notified K sh pid)).mpr (none_of_sweep K hnone)

section Told

variable {answer : WaitAnswer} {before after : Option (Option Completion)}

/-- A process that is a child after it was asked about had not ended when it was. -/
theorem kept_of_told (h : Told pid answer before after) (hafter : after ≠ none) :
    before ≠ none ∧ answer.verdict = .kept := by
  obtain ⟨status, hbefore, rfl, hthen⟩ := h
  have hasked : Children.onceAsked status ≠ none := fun hnone =>
    hafter ((eq_none_iff_of_ages hthen).mpr hnone)
  rcases status with _ | _ | cause
  · exact absurd rfl hasked
  · refine ⟨fun hnone => ?_, rfl⟩
    exact nomatch (eq_none_iff_of_ages hbefore).mpr hnone
  · exact absurd rfl hasked

/-- A child whose job stays in the table is still one, unless the answer was an error. -/
theorem child_of_told (h : Told pid answer before after) (hbefore : before ≠ none)
    (hkept : answer.verdict = .kept) :
    after ≠ none ↔ answer ≠ .failed .invalidArgument := by
  obtain ⟨status, hages, rfl, hthen⟩ := h
  have hafter := eq_none_iff_of_ages hthen
  rcases status with _ | _ | cause
  · exact absurd ((eq_none_iff_of_ages hages).mp rfl) hbefore
  · have hstill : after ≠ none := fun hnone => nomatch hafter.mp hnone
    exact iff_of_true hstill nofun
  · have hgone : after = none := hafter.mpr rfl
    have hcause : ¬ cause.Nameable := by
      intro hnameable
      have hverdict := cause.verdict_answer_of_nameable hnameable pid
      exact nomatch hverdict.symm.trans hkept
    have hanswer := (cause.answer_eq_invalidArgument_iff pid).mpr hcause
    rw [hgone]
    exact iff_of_false (fun h => h rfl) (fun h => h hanswer)

end Told

end Shell

/-! ## A host that keeps children and does little else -/

/-- Children of which one has ended are older, and the others are the same. -/
theorem Children.later_finish (cs : Children) (pid : ProcessId) (cause : Completion) :
    cs.Later (cs.finish pid cause) := by
  intro other
  rw [status?_finish]
  split
  · next hends =>
      obtain ⟨rfl, hruns⟩ := hends
      exact .inr ⟨hruns, cause, rfl⟩
  · exact ages_refl _

/-- The children that have not been collected, and the number that the next one is to get. -/
structure ChildWorld where
  children : Children := {}
  next : Int32 := 7

namespace ChildWorld

/-- One of the children has ended. -/
def finish (pid : ProcessId) (cause : Completion) (world : ChildWorld) : ChildWorld :=
  { world with children := world.children.finish pid cause }

/-- There is nothing to read. -/
def input : InputStream ChildWorld where
  answers _ := []
  advance _ world := world
  bound _ := 0

/-- A host on which a child that is waited for leaves with exit code zero if it still runs, and a
child that is told to end is killed by that. -/
def host : Host ChildWorld where
  print _ world := world
  printError _ world := world
  arrivals world := ([], world)
  fork _ world :=
    if world.children.isChild ⟨world.next⟩ then (none, world)
    else (some ⟨world.next⟩,
      { children := world.children.spawn ⟨world.next⟩, next := world.next + 1 })
  wait pid world :=
    let ended := world.children.finish pid (.exited 0)
    match ended.status? pid with
    | some (some cause) =>
      ([.failed .interrupted, cause.answer pid], { world with children := ended.collect pid })
    | some none | none => ([strangerAnswer pid], world)
  poll pid world :=
    let (answer, children) := world.children.poll pid
    (answer, { world with children })
  terminate pid world := (none, world.finish pid (.killed 15))
  terminateGroup world := world
  workingDirectory _ := .ok ['/']
  home _ := none
  changeDirectory _ world := .ok world
  exportDirectories _ _ world := world
  standardInput := input
  openLines _ _ := .error (.system .noEntry)
  openLog _ _ := .error (.system .noEntry)

/-- A shell without children that has just been started. -/
def shell : Shell ChildWorld :=
  Shell.fresh {} 1 {} {}

/-- The host treats its children as the system does. -/
def kernel : Kernel host where
  children := children
  print _ _ := Children.later_refl _
  printError _ _ := Children.later_refl _
  arrivals _ := Children.later_refl _
  terminate pid world := world.children.later_finish pid (.killed 15)
  terminateGroup _ := Children.later_refl _
  changeDirectory path world world' hmove := by
    obtain rfl := Except.ok.inj hmove
    exact Children.later_refl _
  exportDirectories _ _ _ := Children.later_refl _
  forkFails launch world hnone := by
    simp only [host] at hnone ⊢
    split
    · exact Children.later_refl _
    · next hnew =>
        rw [if_neg hnew] at hnone
        exact nomatch hnone
  fork launch world pid hsome := by
    simp only [host] at hsome ⊢
    split
    · next hold =>
        rw [if_pos hold] at hsome
        exact nomatch hsome
    · next hnew =>
        rw [if_neg hnew] at hsome
        obtain rfl := Option.some.inj hsome
        have hstranger := mt (world.children.isChild_iff ⟨world.next⟩).mpr hnew
        exact ⟨not_not.mp hstranger, Children.later_refl _⟩
  poll pid world :=
    ⟨world.children, Children.later_refl _, rfl, Children.later_refl _⟩
  wait pid world hchild := by
    have hended : ∃ cause,
        (world.children.finish pid (.exited 0)).status? pid = some (some cause) := by
      rw [Children.status?_finish]
      rcases hstatus : world.children.status? pid with _ | _ | cause
      · exact absurd hstatus hchild
      · exact ⟨.exited 0, by simp⟩
      · exact ⟨cause, by simp⟩
    obtain ⟨cause, hcause⟩ := hended
    have hwait : host.wait pid world = ([.failed .interrupted, cause.answer pid],
        { world with children := (world.children.finish pid (.exited 0)).collect pid }) := by
      simp only [host, hcause]
    rw [hwait]
    have htransient : ∀ answer ∈ [WaitAnswer.failed .interrupted], answer.Transient := by
      simp [WaitAnswer.Transient, WaitAnswer.completion?]
    exact .told htransient (world.children.later_finish pid (.exited 0)) hcause
      (Children.later_refl _)

end ChildWorld

end Conch
