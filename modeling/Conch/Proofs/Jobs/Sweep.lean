import Conch.Process.Job
import Mathlib.Data.List.Basic

/-!
# What sweeps and registrations do with the table

A sweep asks about every tracked process once, in table order, and each answer decides alone what
becomes of its job.  `consult` is the list of the jobs with their answers; the sweep reports the
jobs of one kind of answer (`completed_eq`), keeps those of another (`remaining_eq`), and forgets
the rest, so the tracked processes are shared out between the three without loss (`pids_perm`).  A
registration adds one job at the end, or changes nothing (`register?_cases`).

Nothing is assumed of whoever answers.
-/

namespace Conch.JobTable

variable {σ : Type} (poll : ProcessId → σ → WaitAnswer × σ)

/-- Every job with the answer about its process, when they are asked about in order. -/
def consult : List Job → σ → List (Job × WaitAnswer)
  | [], _ => []
  | job :: jobs, world =>
    (job, (poll job.pid world).1) :: consult jobs (poll job.pid world).2

/-- The report on a job, if the answer is that it has ended. -/
def report? (asked : Job × WaitAnswer) : Option Job :=
  match asked.2.verdict with
  | .completed cause => some (asked.1.markCompleted cause)
  | .dropped | .kept => none

/-- The job, if the answer lets it stay. -/
def stays? (asked : Job × WaitAnswer) : Option Job :=
  match asked.2.verdict with
  | .kept => some asked.1
  | .completed _ | .dropped => none

/-- The process, if the answer is that nobody knows it. -/
def lost? (asked : Job × WaitAnswer) : Option ProcessId :=
  match asked.2.verdict with
  | .dropped => some asked.1.pid
  | .completed _ | .kept => none

/-- A sweep deals with the first job by its answer, and then with the others. -/
theorem sweepJobs_cons (job : Job) (jobs : List Job) (world : σ) :
    sweepJobs poll (job :: jobs) world =
      let rest := sweepJobs poll jobs (poll job.pid world).2
      match (poll job.pid world).1.verdict with
      | .completed cause => { rest with completed := job.markCompleted cause :: rest.completed }
      | .dropped => rest
      | .kept => { rest with remaining := job :: rest.remaining } :=
  rfl

/-- Whatever the first answer is, the sweep goes on in the world that it leaves. -/
theorem world_sweepJobs_cons (job : Job) (jobs : List Job) (world : σ) :
    (sweepJobs poll (job :: jobs) world).world =
      (sweepJobs poll jobs (poll job.pid world).2).world := by
  rw [sweepJobs_cons]
  cases (poll job.pid world).1.verdict <;> rfl

/-- A sweep asks about each job of the table once and in order, whatever the answers are. -/
theorem map_fst_consult (jobs : List Job) (world : σ) :
    (consult poll jobs world).map Prod.fst = jobs := by
  induction jobs generalizing world with
  | nil => rfl
  | cons job jobs ih => rw [consult, List.map_cons, ih]

/-- Nobody is asked about but the jobs of the table. -/
theorem mem_of_mem_consult {jobs : List Job} {world : σ} {asked : Job × WaitAnswer}
    (h : asked ∈ consult poll jobs world) : asked.1 ∈ jobs := by
  rw [← map_fst_consult poll jobs world]
  exact List.mem_map_of_mem h

/-- The reports of a sweep are those of its answers, in the order of the table. -/
theorem completed_eq (jobs : List Job) (world : σ) :
    (sweepJobs poll jobs world).completed = (consult poll jobs world).filterMap report? := by
  induction jobs generalizing world with
  | nil => rfl
  | cons job jobs ih =>
      rw [sweepJobs_cons, consult, List.filterMap_cons, ← ih]
      cases hverdict : (poll job.pid world).1.verdict <;> simp [report?, hverdict]

/-- What is reported is tracked, and the report says how it ended. -/
theorem of_mem_completed {jobs : List Job} {world : σ} {report : Job}
    (h : report ∈ (sweepJobs poll jobs world).completed) :
    report.pid ∈ jobs.map Job.pid ∧ ∃ cause, report.cause = some cause := by
  rw [completed_eq] at h
  obtain ⟨asked, hasked, hreport⟩ := List.mem_filterMap.mp h
  have hjob := mem_of_mem_consult poll hasked
  unfold report? at hreport
  split at hreport
  · next cause hverdict =>
      obtain rfl := Option.some.inj hreport
      have hpid : asked.1.pid ∈ jobs.map Job.pid := List.mem_map_of_mem hjob
      exact ⟨hpid, cause, rfl⟩
  · exact nomatch hreport
  · exact nomatch hreport

/-- A job stays exactly if the answer about it says nothing of an end; it stays as it is. -/
theorem stays?_eq_some_iff {asked : Job × WaitAnswer} {job : Job} :
    stays? asked = some job ↔ asked.1 = job ∧ asked.2.verdict = .kept := by
  unfold stays?
  cases asked.2.verdict <;> simp

/-- The jobs that stay are those of the answers that let them. -/
theorem remaining_eq (jobs : List Job) (world : σ) :
    (sweepJobs poll jobs world).remaining = (consult poll jobs world).filterMap stays? := by
  induction jobs generalizing world with
  | nil => rfl
  | cons job jobs ih =>
      rw [sweepJobs_cons, consult, List.filterMap_cons, ← ih]
      cases hverdict : (poll job.pid world).1.verdict <;> simp [stays?, hverdict]

/-- A sweep takes jobs out of the table and never puts one in or moves one. -/
theorem remaining_sublist (jobs : List Job) (world : σ) :
    (sweepJobs poll jobs world).remaining.Sublist jobs := by
  induction jobs generalizing world with
  | nil => exact List.Sublist.refl _
  | cons job jobs ih =>
      rw [sweepJobs_cons]
      cases (poll job.pid world).1.verdict with
      | completed cause => exact (ih _).cons job
      | dropped => exact (ih _).cons job
      | kept => exact (ih _).cons_cons job

/-- **No tracked process gets lost in a sweep**: each is reported, or unknown to the system, or
still tracked. -/
theorem pids_perm (jobs : List Job) (world : σ) :
    (jobs.map Job.pid).Perm
      ((sweepJobs poll jobs world).completed.map Job.pid ++
        ((consult poll jobs world).filterMap lost? ++
          (sweepJobs poll jobs world).remaining.map Job.pid)) := by
  induction jobs generalizing world with
  | nil => exact List.Perm.refl _
  | cons job jobs ih =>
      have hrest := (ih (poll job.pid world).2).cons job.pid
      rw [sweepJobs_cons, consult, List.filterMap_cons]
      cases hverdict : (poll job.pid world).1.verdict with
      | completed cause => simpa [lost?, hverdict, Job.markCompleted] using hrest
      | dropped =>
          simp only [lost?, hverdict]
          exact hrest.trans List.perm_middle.symm
      | kept =>
          simp only [lost?, hverdict, List.map_cons]
          rw [← List.append_assoc] at hrest ⊢
          exact hrest.trans List.perm_middle.symm

/-- **What becomes of a registration**: it is refused if there is no room, else nothing changes if
the process is tracked, else it comes last. -/
theorem register?_cases (t : JobTable) (pid : ProcessId) :
    (t.hasCapacity = false ∧ t.register? pid = none) ∨
    (t.hasCapacity = true ∧ pid ∈ t.pids ∧ t.register? pid = some t) ∨
    (t.hasCapacity = true ∧ pid ∉ t.pids ∧
      t.register? pid = some { t with jobs := t.jobs ++ [{ pid }] }) := by
  unfold register?
  cases hroom : t.hasCapacity with
  | false => exact .inl ⟨rfl, rfl⟩
  | true =>
      by_cases hpid : pid ∈ t.pids
      · exact .inr (.inl ⟨rfl, hpid, by simp [hpid]⟩)
      · exact .inr (.inr ⟨rfl, hpid, by simp [hpid]⟩)

end Conch.JobTable
