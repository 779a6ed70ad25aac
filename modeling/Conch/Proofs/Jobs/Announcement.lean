import Conch.Proofs.Jobs.Children
import Conch.Proofs.Shell.Action
import Mathlib.Data.List.Induction
import Mathlib.Data.List.Nodup

/-!
# Every completion is announced once

A `TrackedJobs` is a table of jobs with the children it is about and a record of what has been said
of them.  Its steps are what may happen in any order: a child is created, a child ends, a child is
registered, the table is swept, the shell notifies its user.  Only the table collects children.

The table does what is expected of it (`Announced`) as long as no tracked child has ended in a way
that cannot be put into words (`Quiet`), and no longer: a child killed by a real-time signal is
collected by the sweep that asks about it, and the answer does not say that it has ended, so it
stays in the table; the next sweep hears that there is no such child and drops it without a word.

* `distinct_run`: no process is tracked twice;
* `sound_step`, `sound_run`: what stays true as long as all is quiet, in one step and then in any
  number;
* `announced_iff_quiet`: all is announced, exactly once and truthfully, in the quiet runs and in no
  others.
-/

namespace Conch

/-- A table of jobs with the children it is about.  It is known which children were created, with
each time a number was used, which ones the table took in, which jobs a sweep reported, and what was
written to standard output. -/
structure TrackedJobs where
  table : JobTable
  children : Children := {}
  created : List ProcessId := []
  registered : List ProcessId := []
  reported : List Job := []
  printed : List String := []

/-- What can happen to a table and its children: a child is created, ends, or is registered as a
job, the table is swept, or the shell notifies its user of the jobs that have ended. -/
inductive TrackedJobs.Step where
  | create (pid : ProcessId)
  | finish (pid : ProcessId) (cause : Completion)
  | register (pid : ProcessId)
  | sweep
  | notify
  deriving DecidableEq, Repr

namespace TrackedJobs

/-- What a sweep of the table leaves. -/
def swept (y : TrackedJobs) : TrackedJobs :=
  let (ended, table, children) := y.table.sweep Children.poll y.children
  { y with table, children, reported := y.reported ++ ended }

/-- The line about a job that has ended. -/
def line (job : Job) : String :=
  job.text ++ "\n"

/-- What one step leaves.  The number of a child is not given to another one before the child was
collected, and only children are registered. -/
def step (y : TrackedJobs) : Step → TrackedJobs
  | .create pid =>
    if y.children.isChild pid then y
    else { y with children := y.children.spawn pid, created := y.created ++ [pid] }
  | .finish pid cause => { y with children := y.children.finish pid cause }
  | .register pid =>
    if y.children.isChild pid then
      match y.table.register? pid with
      | some table =>
        { y with
          table
          registered := if pid ∈ y.table.pids then y.registered else y.registered ++ [pid] }
      | none => y
    else y
  | .sweep => y.swept
  | .notify =>
    { y.swept with
      printed := y.printed ++ (y.table.sweep Children.poll y.children).1.map line }

/-- What a series of steps makes of an empty table. -/
def run (capacity : Nat) (steps : List Step) : TrackedJobs :=
  steps.foldl step { table := { capacity } }

/-- A job as it is to be reported, if its child has ended. -/
def ended? (children : Children) (job : Job) : Option Job :=
  match children.status? job.pid with
  | some (some cause) => some (job.markCompleted cause)
  | some none | none => none

/-- The tracked jobs whose children have ended, each with its true cause. -/
def due (y : TrackedJobs) : List Job :=
  y.table.jobs.filterMap (ended? y.children)

/-- What is expected of a table.  The tracked processes are the registered ones whose completion has
not been reported, none is tracked twice at a time, and a number is reported at most as often as it
was given out.  A sweep reports all tracked children that have ended, and says how; a notification
does so too, and prints a line about each. -/
structure Announced (y : TrackedJobs) : Prop where
  accounted : y.registered.Perm (y.reported.map Job.pid ++ y.table.pids)
  distinct : y.table.pids.Nodup
  once : ∀ pid, (y.reported.map Job.pid).count pid ≤ y.created.count pid
  punctual : (y.step .sweep).reported = y.reported ++ y.due
  spoken : (y.step .notify).reported = y.reported ++ y.due ∧
    (y.step .notify).printed = y.printed ++ y.due.map line

/-- No tracked child has ended in a way that cannot be put into words. -/
def Quiet (y : TrackedJobs) : Prop :=
  ∀ pid ∈ y.table.pids, ∀ cause, y.children.status? pid = some (some cause) → cause.Nameable

/-- What is true as long as all is quiet.  The tracked processes are the registered ones whose
completion has not been reported, and each of them is a child; no child is registered twice, and one
that is not tracked has not been registered. -/
structure Sound (y : TrackedJobs) : Prop where
  accounted : y.registered.Perm (y.reported.map Job.pid ++ y.table.pids)
  known : ∀ pid ∈ y.table.pids, y.children.status? pid ≠ none
  once : ∀ pid, y.registered.count pid ≤ y.created.count pid
  fresh : ∀ pid, y.children.status? pid ≠ none → pid ∉ y.table.pids →
    y.registered.count pid < y.created.count pid

theorem run_append (capacity : Nat) (steps : List Step) (s : Step) :
    run capacity (steps ++ [s]) = (run capacity steps).step s := by
  rw [run, List.foldl_append]
  rfl

/-! ## What a sweep says -/

section Sweep

variable {children : Children} {job : Job}

/-- The answer about a child that has not ended, or whose end can be named, is reported as it should
be. -/
theorem report?_poll
    (hquiet : ∀ cause, children.status? job.pid = some (some cause) → cause.Nameable) :
    JobTable.report? (job, (Children.poll job.pid children).1) = ended? children job := by
  rcases hstatus : children.status? job.pid with _ | _ | cause
  · have hverdict : ∀ cause, (strangerAnswer job.pid).verdict ≠ .completed cause := by
      intro cause
      unfold strangerAnswer
      split <;> simp [WaitAnswer.verdict, WaitAnswer.completion?, Errno.noProcess, Errno.noChild]
    simp only [JobTable.report?, ended?, Children.poll, hstatus]
    split
    · next cause h => exact absurd h (hverdict cause)
    · rfl
    · rfl
  · simp [JobTable.report?, ended?, Children.poll, hstatus, WaitAnswer.verdict,
      WaitAnswer.completion?]
  · have hverdict := Completion.verdict_answer_of_nameable (hquiet cause hstatus) job.pid
    simp [JobTable.report?, ended?, Children.poll_of_ended children job.pid hstatus, hstatus,
      hverdict]

/-- The answer about a child that has ended without a name for it is not reported. -/
theorem report?_poll_of_not_nameable {cause : Completion}
    (hended : children.status? job.pid = some (some cause)) (hcause : ¬ cause.Nameable) :
    JobTable.report? (job, (Children.poll job.pid children).1) = none := by
  have hverdict := Completion.verdict_answer_of_not_nameable hcause job.pid
  simp [JobTable.report?, Children.poll_of_ended children job.pid hended, hverdict]

/-- No child is taken for lost, since the system does not deny that there is such a child. -/
theorem lost?_poll (hknown : children.status? job.pid ≠ none) :
    JobTable.lost? (job, (Children.poll job.pid children).1) = none := by
  rcases hstatus : children.status? job.pid with _ | _ | cause
  · exact absurd hstatus hknown
  · simp [JobTable.lost?, Children.poll, hstatus, WaitAnswer.verdict, WaitAnswer.completion?]
  · have hanswer := congrArg Prod.fst (Children.poll_of_ended children job.pid hstatus)
    by_cases hcause : cause.Nameable
    · have hverdict := Completion.verdict_answer_of_nameable hcause job.pid
      simp [JobTable.lost?, hanswer, hverdict]
    · have hverdict := Completion.verdict_answer_of_not_nameable hcause job.pid
      simp [JobTable.lost?, hanswer, hverdict]

/-- A child that is let stay, and whose end could have been named, runs. -/
theorem running_of_stays (hknown : children.status? job.pid ≠ none)
    (hquiet : ∀ cause, children.status? job.pid = some (some cause) → cause.Nameable)
    {kept : Job} (hstays : JobTable.stays? (job, (Children.poll job.pid children).1) = some kept) :
    kept = job ∧ children.status? job.pid = some none := by
  rcases hstatus : children.status? job.pid with _ | _ | cause
  · exact absurd hstatus hknown
  · simp [JobTable.stays?, Children.poll, hstatus, WaitAnswer.verdict,
      WaitAnswer.completion?] at hstays
    exact ⟨hstays.symm, rfl⟩
  · have hverdict := Completion.verdict_answer_of_nameable (hquiet cause hstatus) job.pid
    simp [JobTable.stays?, Children.poll_of_ended children job.pid hstatus, hverdict] at hstays

end Sweep

variable {y : TrackedJobs}

/-- A sweep leaves in the table the jobs that are to stay, and nothing else about it changes. -/
theorem swept_table : y.swept.table =
    { y.table with jobs := (JobTable.sweepJobs Children.poll y.table.jobs y.children).remaining } :=
  rfl

/-- A sweep adds to what was reported the jobs that it has found to be completed, in the order of
the table. -/
theorem swept_reported : y.swept.reported =
    y.reported ++ (JobTable.sweepJobs Children.poll y.table.jobs y.children).completed :=
  rfl

/-- If all is quiet a sweep reports what is due. -/
theorem completed_eq_due (hdistinct : y.table.pids.Nodup) (hquiet : y.Quiet) :
    (JobTable.sweepJobs Children.poll y.table.jobs y.children).completed = y.due := by
  rw [JobTable.completed_eq, Children.consult_poll hdistinct, List.filterMap_map]
  refine List.filterMap_congr fun job hjob => ?_
  exact report?_poll (hquiet job.pid (List.mem_map_of_mem hjob))

/-- A report is about the job that it is made of. -/
theorem pid_of_report? {job report : Job} {answer : WaitAnswer}
    (h : JobTable.report? (job, answer) = some report) : report.pid = job.pid := by
  unfold JobTable.report? at h
  split at h
  · next cause hverdict =>
      obtain rfl := Option.some.inj h
      rfl
  · simp at h
  · simp at h

/-- If a child has ended without a name for it, a sweep does not report all that is due. -/
theorem completed_ne_due (hdistinct : y.table.pids.Nodup) (hloud : ¬ y.Quiet) :
    (JobTable.sweepJobs Children.poll y.table.jobs y.children).completed ≠ y.due := by
  intro hall
  simp only [Quiet, not_forall] at hloud
  obtain ⟨pid, hpid, cause, hended, hcause⟩ := hloud
  obtain ⟨job, hjob, rfl⟩ := List.mem_map.mp hpid
  have hdue : job.markCompleted cause ∈ y.due :=
    List.mem_filterMap.mpr ⟨job, hjob, by simp [ended?, hended]⟩
  rw [← hall, JobTable.completed_eq, Children.consult_poll hdistinct, List.filterMap_map] at hdue
  obtain ⟨other, -, hreport⟩ := List.mem_filterMap.mp hdue
  change JobTable.report? (other, (Children.poll other.pid y.children).1) = _ at hreport
  have hsame : (job.markCompleted cause).pid = other.pid := pid_of_report? hreport
  rw [report?_poll_of_not_nameable (hsame ▸ hended) hcause] at hreport
  exact Option.some_ne_none _ hreport.symm

/-! ## What a step preserves -/

/-- Registering a process puts it at the end, unless it is tracked already. -/
theorem pids_of_register? {table table' : JobTable} {pid : ProcessId}
    (h : table.register? pid = some table') :
    table'.pids = if pid ∈ table.pids then table.pids else table.pids ++ [pid] := by
  unfold JobTable.register? at h
  by_cases hroom : table.hasCapacity = true
  · by_cases hpid : pid ∈ table.pids
    · simp only [hroom, hpid, if_true, Option.some.injEq] at h
      rw [← h, if_pos hpid]
    · simp only [hroom, hpid, if_true, if_false, Option.some.injEq] at h
      rw [← h, if_neg hpid]
      simp [JobTable.pids]
  · simp [hroom] at h

/-- After a registration the tracked processes are those from before and the one that was
registered. -/
theorem mem_pids_of_register? {table table' : JobTable} {pid : ProcessId}
    (h : table.register? pid = some table') (other : ProcessId) :
    other ∈ table'.pids ↔ other = pid ∨ other ∈ table.pids := by
  rw [pids_of_register? h]
  split
  · next htracked =>
      constructor
      · exact .inr
      · rintro (rfl | hin)
        · exact htracked
        · exact hin
  · rw [List.mem_append, List.mem_singleton, or_comm]

/-- A registration does not make a process tracked twice, since one that is tracked already is not
added. -/
theorem nodup_pids_of_register? {table table' : JobTable} {pid : ProcessId}
    (h : table.register? pid = some table') (hdistinct : table.pids.Nodup) :
    table'.pids.Nodup := by
  rw [pids_of_register? h]
  split
  · exact hdistinct
  · next hfresh =>
      rw [← List.concat_eq_append]
      exact List.Nodup.concat hfresh hdistinct

/-- No step makes a process tracked twice: a registration leaves a tracked process as it is, and
sweeps only take jobs away. -/
theorem distinct_step (hdistinct : y.table.pids.Nodup) (s : Step) :
    (y.step s).table.pids.Nodup := by
  have hswept : y.swept.table.pids.Nodup :=
    hdistinct.sublist ((JobTable.remaining_sublist _ _ _).map _)
  cases s with
  | create pid =>
      rw [step]
      split
      · exact hdistinct
      · exact hdistinct
  | finish pid cause => exact hdistinct
  | register pid =>
      rw [step]
      split
      · split
        · next table htable => exact nodup_pids_of_register? htable hdistinct
        · exact hdistinct
      · exact hdistinct
  | sweep => exact hswept
  | notify => exact hswept

/-- **No process is tracked twice**, whatever happens, even if children end in ways that have no
name. -/
theorem distinct_run (capacity : Nat) (steps : List Step) :
    (run capacity steps).table.pids.Nodup := by
  induction steps using List.reverseRec with
  | nil => exact List.nodup_nil
  | append_singleton steps s ih =>
      rw [run_append]
      exact distinct_step ih s

/-- An empty table of any capacity is sound, as there is nothing to be true of it. -/
theorem sound_empty (capacity : Nat) : Sound { table := { capacity } } where
  accounted := List.Perm.refl _
  known := by simp [JobTable.pids]
  once := by simp
  fresh := fun pid hchild => absurd (Children.status?_nil pid) hchild

/-- If all is quiet a sweep leaves in the table the children that run. -/
theorem mem_pids_swept (hdistinct : y.table.pids.Nodup) (hquiet : y.Quiet) (hsound : y.Sound)
    (pid : ProcessId) : pid ∈ y.swept.table.pids ↔
      pid ∈ y.table.pids ∧ y.children.status? pid = some none := by
  have hremaining : y.swept.table.jobs =
      y.table.jobs.filterMap fun job =>
        JobTable.stays? (job, (Children.poll job.pid y.children).1) := by
    rw [swept_table, JobTable.remaining_eq, Children.consult_poll hdistinct, List.filterMap_map]
    rfl
  rw [JobTable.pids, hremaining, List.mem_map]
  constructor
  · rintro ⟨kept, hkept, rfl⟩
    obtain ⟨job, hjob, hstays⟩ := List.mem_filterMap.mp hkept
    have hpid : job.pid ∈ y.table.pids := List.mem_map_of_mem hjob
    obtain ⟨rfl, hruns⟩ := running_of_stays (hsound.known _ hpid) (hquiet _ hpid) hstays
    exact ⟨hpid, hruns⟩
  · rintro ⟨hpid, hruns⟩
    obtain ⟨job, hjob, rfl⟩ := List.mem_map.mp hpid
    refine ⟨job, List.mem_filterMap.mpr ⟨job, hjob, ?_⟩, rfl⟩
    simp [JobTable.stays?, Children.poll, hruns, WaitAnswer.verdict, WaitAnswer.completion?]

/-- If all is quiet a sweep keeps the table sound. -/
theorem sound_swept (hdistinct : y.table.pids.Nodup) (hquiet : y.Quiet) (hsound : y.Sound) :
    y.swept.Sound := by
  have hpids := mem_pids_swept hdistinct hquiet hsound
  have hstatus : ∀ pid, y.swept.children.status? pid =
      if pid ∈ y.table.pids then Children.onceAsked (y.children.status? pid)
      else y.children.status? pid := Children.status?_sweepJobs y.table.jobs y.children
  refine ⟨?_, fun pid hpid => ?_, hsound.once, fun pid hchild hgone => ?_⟩
  · have hlost : (JobTable.consult Children.poll y.table.jobs y.children).filterMap
        JobTable.lost? = [] := by
      rw [Children.consult_poll hdistinct, List.filterMap_map, List.filterMap_eq_nil_iff]
      exact fun job hjob => lost?_poll (hsound.known _ (List.mem_map_of_mem hjob))
    have hshared := JobTable.pids_perm Children.poll y.table.jobs y.children
    rw [hlost, List.nil_append] at hshared
    rw [swept_reported, List.map_append, List.append_assoc]
    exact hsound.accounted.trans (hshared.append_left _)
  · obtain ⟨htracked, hruns⟩ := (hpids pid).mp hpid
    rw [hstatus, if_pos htracked, hruns]
    exact Option.some_ne_none _
  · rw [hstatus] at hchild
    by_cases htracked : pid ∈ y.table.pids
    · rw [if_pos htracked] at hchild
      rcases hthen : y.children.status? pid with _ | _ | cause
      · exact absurd hthen (hsound.known pid htracked)
      · exact absurd ((hpids pid).mpr ⟨htracked, hthen⟩) hgone
      · exact absurd (by rw [hthen]; rfl) hchild
    · rw [if_neg htracked] at hchild
      exact hsound.fresh pid hchild htracked

/-- A child that is created keeps the table sound, if its number is not that of a child already. -/
theorem sound_create (hsound : y.Sound) {pid : ProcessId}
    (hnone : y.children.status? pid = none) :
    Sound { y with children := y.children.spawn pid, created := y.created ++ [pid] } := by
  have hspawn := Children.status?_spawn y.children pid hnone
  refine ⟨hsound.accounted, fun tracked htracked => ?_, fun other => ?_,
    fun other hchild hgone => ?_⟩
  · have hold := hsound.known tracked htracked
    have hne : tracked ≠ pid := fun heq => hold (heq ▸ hnone)
    simpa only [hspawn, if_neg hne] using hold
  · have hold := hsound.once other
    simp only [List.count_append]
    omega
  · simp only [List.count_append]
    by_cases hother : other = pid
    · have hold := hsound.once pid
      simp only [hother, List.count_singleton_self]
      omega
    · simp only [hspawn, if_neg hother] at hchild
      have hold := hsound.fresh other hchild hgone
      omega

/-- A child that ends keeps the table sound, since it stays a child until somebody asks about it. -/
theorem sound_finish (hsound : y.Sound) (pid : ProcessId) (cause : Completion) :
    Sound { y with children := y.children.finish pid cause } := by
  have hchild : ∀ other, (y.children.finish pid cause).status? other ≠ none ↔
      y.children.status? other ≠ none := by
    intro other
    rw [Children.status?_finish]
    split
    · next hends =>
        obtain ⟨rfl, hruns⟩ := hends
        simp [hruns]
    · exact Iff.rfl
  exact ⟨hsound.accounted, fun tracked htracked => (hchild tracked).mpr (hsound.known _ htracked),
    hsound.once, fun other hafter hgone => hsound.fresh other ((hchild other).mp hafter) hgone⟩

/-- The registration of a child that is not tracked keeps the table sound. -/
theorem sound_register (hsound : y.Sound) {pid : ProcessId} {table : JobTable}
    (hchild : y.children.status? pid ≠ none) (hnew : pid ∉ y.table.pids)
    (hpids : table.pids = y.table.pids ++ [pid]) :
    Sound { y with table, registered := y.registered ++ [pid] } := by
  have hfirst := hsound.fresh pid hchild hnew
  refine ⟨?_, fun tracked hin => ?_, fun other => ?_, fun other hother hgone => ?_⟩
  · simp only [hpids, ← List.append_assoc]
    exact hsound.accounted.append_right [pid]
  · simp only [hpids, List.mem_append, List.mem_singleton] at hin
    rcases hin with hin | rfl
    · exact hsound.known tracked hin
    · exact hchild
  · have hold := hsound.once other
    simp only [List.count_append]
    by_cases hother : other = pid
    · simp only [hother, List.count_singleton_self]
      omega
    · simp only [List.count_singleton, if_neg (mt eq_of_beq (Ne.symm hother))]
      omega
  · simp only [hpids, List.mem_append, List.mem_singleton, not_or] at hgone
    have hold := hsound.fresh other hother hgone.1
    simp only [List.count_append, List.count_singleton, if_neg (mt eq_of_beq (Ne.symm hgone.2))]
    omega

/-- **What one step preserves**: a table that is quiet stays sound. -/
theorem sound_step (hdistinct : y.table.pids.Nodup) (hquiet : y.Quiet) (hsound : y.Sound)
    (s : Step) : (y.step s).Sound := by
  cases s with
  | create pid =>
      rw [step]
      split
      · exact hsound
      · next hnew =>
          exact sound_create hsound (by simpa [Children.isChild_iff] using hnew)
  | finish pid cause => exact sound_finish hsound pid cause
  | register pid =>
      rw [step]
      split
      · next hchild =>
          rw [Children.isChild_iff] at hchild
          split
          · next table htable =>
              have hpids := pids_of_register? htable
              by_cases htracked : pid ∈ y.table.pids
              · rw [if_pos htracked] at hpids ⊢
                exact ⟨by simpa only [hpids] using hsound.accounted,
                  by simpa only [hpids] using hsound.known, hsound.once,
                  by simpa only [hpids] using hsound.fresh⟩
              · rw [if_neg htracked] at hpids ⊢
                exact sound_register hsound hchild htracked hpids
          · exact hsound
      · exact hsound
  | sweep => exact sound_swept hdistinct hquiet hsound
  | notify =>
      have hswept := sound_swept hdistinct hquiet hsound
      exact ⟨hswept.accounted, hswept.known, hswept.once, hswept.fresh⟩

/-- **What a quiet run preserves**: a table that is quiet at every moment is sound at the end. -/
theorem sound_run (capacity : Nat) (steps : List Step)
    (hquiet : ∀ before, before <+: steps → (run capacity before).Quiet) :
    (run capacity steps).Sound := by
  induction steps using List.reverseRec with
  | nil => exact sound_empty capacity
  | append_singleton steps s ih =>
      have hbefore : ∀ before, before <+: steps → (run capacity before).Quiet := fun before h =>
        hquiet before (h.trans (List.prefix_append steps [s]))
      rw [run_append]
      exact sound_step (distinct_run capacity steps) (hbefore steps (List.prefix_refl steps))
        (ih hbefore) s

/-! ## The main result -/

/-- A table that is sound and quiet does what is expected. -/
theorem announced_of_quiet (hdistinct : y.table.pids.Nodup) (hquiet : y.Quiet)
    (hsound : y.Sound) : y.Announced := by
  have hdue := completed_eq_due hdistinct hquiet
  have hreported : y.swept.reported = y.reported ++ y.due := by
    rw [swept_reported, hdue]
  refine ⟨hsound.accounted, hdistinct, fun pid => ?_, hreported, hreported, ?_⟩
  · have hcount := hsound.accounted.count_eq pid
    have honce := hsound.once pid
    rw [List.count_append] at hcount
    omega
  · exact congrArg (fun ended => y.printed ++ List.map line ended) hdue

/-- **Completions are announced exactly once in quiet runs, and in no others.**  Whatever is
created, ends, is registered, swept and notified in whatever order: the registered processes are
shared out between the reported and the tracked ones, each sweep reports exactly the tracked
children that have ended since, with their true causes, each notification prints their lines, and
nothing is reported twice, as long as no tracked child has been killed by a real-time signal; once
one has, this fails.  The notification of a shell is a sweep of its table that prints the lines of
what was reported. -/
theorem announced_iff_quiet (capacity : Nat) (steps : List Step) :
    ((∀ before, before <+: steps → (run capacity before).Announced) ↔
      ∀ before, before <+: steps → (run capacity before).Quiet) ∧
    ∀ (σ : Type) (H : Host σ) (sh : Shell σ), Shell.notify H sh = .ok () { sh with
      jobs := (sh.jobs.sweep H.poll sh.world).2.1
      world := Shell.printAll H ((sh.jobs.sweep H.poll sh.world).1.map line)
        (sh.jobs.sweep H.poll sh.world).2.2 } := by
  refine ⟨⟨fun hannounced before hbefore => ?_, fun hquiet before hbefore => ?_⟩,
    fun σ H sh => Shell.notify_eq H sh⟩
  · by_contra hloud
    have hpunctual := (hannounced before hbefore).punctual
    exact completed_ne_due (distinct_run capacity before) hloud
      (List.append_cancel_left hpunctual)
  · have hsound := sound_run capacity before fun earlier h => hquiet earlier (h.trans hbefore)
    exact announced_of_quiet (distinct_run capacity before) (hquiet before hbefore) hsound

/-- A registered child is killed by the first real-time signal: two sweeps later it has left the
table and nothing was reported. -/
theorem killed_job_dropped_unreported :
    let y := run 200
      [.create ⟨7⟩, .register ⟨7⟩, .finish ⟨7⟩ (.killed 34), .sweep, .sweep]
    y.registered = [⟨7⟩] ∧ y.reported = [] ∧ y.table.pids = [] ∧ ¬ y.Announced :=
  ⟨by decide, by decide, by decide, fun h => absurd h.accounted.length_eq (by decide)⟩

end TrackedJobs

end Conch
