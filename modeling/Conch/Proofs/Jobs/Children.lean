import Conch.Process.Children
import Conch.Proofs.Jobs.Sweep

/-!
# Sweeping over children

The children of a process are looked at through `status?`: each operation on them is one equation
for it.  Asking about one child leaves the status of every other as it was, so when the tracked
processes are distinct a sweep finds each of them as it stood before the sweep (`consult_poll`).

An answer about a child that has ended names its completion, unless the child was killed by a
signal that cannot be put into words; `Nameable` are the other completions.
-/

namespace Conch

/-- Can an answer say how a child ended?  The real-time signals have no names. -/
def Completion.Nameable : Completion → Prop
  | exited _ => True
  | killed signal => signal < firstRealTimeSignal

instance (cause : Completion) : Decidable cause.Nameable := by
  cases cause <;> unfold Completion.Nameable <;> infer_instance

/-- A completion that can be named is what the answer about the child says. -/
theorem Completion.verdict_answer_of_nameable {cause : Completion} (h : cause.Nameable)
    (pid : ProcessId) : (cause.answer pid).verdict = .completed cause := by
  cases cause with
  | exited code => rfl
  | killed signal =>
      have hlt : signal < firstRealTimeSignal := h
      simp [answer, hlt, WaitAnswer.verdict, WaitAnswer.completion?]

/-- The answer about a child whose completion cannot be named does not say that it has ended. -/
theorem Completion.verdict_answer_of_not_nameable {cause : Completion} (h : ¬ cause.Nameable)
    (pid : ProcessId) : (cause.answer pid).verdict = .kept := by
  cases cause with
  | exited code => exact absurd trivial h
  | killed signal =>
      have hnot : ¬ signal < firstRealTimeSignal := h
      simp [answer, hnot, WaitAnswer.verdict, WaitAnswer.completion?, Errno.invalidArgument,
        Errno.noChild]

/-- The answer about a child is that error exactly if its completion cannot be named. -/
theorem Completion.answer_eq_invalidArgument_iff (cause : Completion) (pid : ProcessId) :
    cause.answer pid = .failed .invalidArgument ↔ ¬ cause.Nameable := by
  cases cause with
  | exited code => exact iff_of_false nofun (fun h => h trivial)
  | killed signal =>
      by_cases hsignal : signal < firstRealTimeSignal
      · simp [answer, Nameable, hsignal]
      · simp [answer, Nameable, hsignal]

namespace Children

theorem status?_nil (pid : ProcessId) : (⟨[]⟩ : Children).status? pid = none :=
  rfl

/-- The first entry about a process gives its status, and entries about others do not matter. -/
theorem status?_cons (key : ProcessId) (status : Option Completion)
    (entries : List (ProcessId × Option Completion)) (pid : ProcessId) :
    (⟨(key, status) :: entries⟩ : Children).status? pid =
      if pid = key then some status else (⟨entries⟩ : Children).status? pid := by
  by_cases h : pid = key
  · simp [status?, h]
  · simp [status?, List.lookup_cons, h, beq_eq_false_iff_ne.mpr h]

variable (cs : Children) (pid : ProcessId)

/-- A process is a child as long as it has a status. -/
theorem isChild_iff : cs.isChild pid = true ↔ cs.status? pid ≠ none := by
  obtain ⟨entries⟩ := cs
  induction entries with
  | nil => simp [isChild, status?_nil]
  | cons entry entries ih =>
      obtain ⟨key, status⟩ := entry
      have hcons : isChild ⟨(key, status) :: entries⟩ pid =
          (key == pid || isChild ⟨entries⟩ pid) := rfl
      rw [hcons, status?_cons]
      by_cases h : pid = key
      · simp [h]
      · simp [h, Ne.symm h, ih]

/-- A process is no child exactly if there is nothing to be told about it. -/
theorem isChild_eq_false_iff : cs.isChild pid = false ↔ cs.status? pid = none := by
  rw [← Bool.not_eq_true, isChild_iff, not_not]

/-- A child that was created runs, and no other child changes. -/
theorem status?_spawn (hnew : cs.status? pid = none) (other : ProcessId) :
    (cs.spawn pid).status? other = if other = pid then some none else cs.status? other := by
  obtain ⟨entries⟩ := cs
  induction entries with
  | nil => exact status?_cons pid none [] other
  | cons entry entries ih =>
      obtain ⟨key, status⟩ := entry
      have hcons : spawn ⟨(key, status) :: entries⟩ pid =
          ⟨(key, status) :: (spawn ⟨entries⟩ pid).entries⟩ := rfl
      rw [status?_cons] at hnew
      have hne : pid ≠ key := fun h => by simp [h] at hnew
      rw [if_neg hne] at hnew
      rw [hcons, status?_cons, status?_cons]
      by_cases hother : other = key
      · simp [hother, Ne.symm hne]
      · simpa [hother] using ih hnew

/-- A child that runs has ended once it ends, and nothing else changes. -/
theorem status?_finish (cause : Completion) (other : ProcessId) :
    (cs.finish pid cause).status? other =
      if other = pid ∧ cs.status? pid = some none then some (some cause)
      else cs.status? other := by
  obtain ⟨entries⟩ := cs
  induction entries with
  | nil => simp [finish, status?_nil]
  | cons entry entries ih =>
      obtain ⟨key, status⟩ := entry
      by_cases hkey : key = pid
      · subst hkey
        have hcons : finish ⟨(key, status) :: entries⟩ key cause =
            ⟨(key, some (status.getD cause)) :: (finish ⟨entries⟩ key cause).entries⟩ := by
          cases status <;> simp [finish]
        rw [hcons, status?_cons, status?_cons, status?_cons]
        by_cases hother : other = key
        · cases status <;> simp [hother]
        · simpa [hother] using ih
      · have hcons : finish ⟨(key, status) :: entries⟩ pid cause =
            ⟨(key, status) :: (finish ⟨entries⟩ pid cause).entries⟩ := by
          simp [finish, hkey]
        rw [hcons, status?_cons, status?_cons, status?_cons]
        by_cases hother : other = key
        · simp [hother, hkey]
        · simpa [hother, Ne.symm hkey] using ih

/-- A child that was collected has no status, and no other child changes. -/
theorem status?_collect (other : ProcessId) :
    (cs.collect pid).status? other = if other = pid then none else cs.status? other := by
  obtain ⟨entries⟩ := cs
  induction entries with
  | nil => simp [collect, status?_nil]
  | cons entry entries ih =>
      obtain ⟨key, status⟩ := entry
      by_cases hkey : key = pid
      · subst hkey
        have hcons : collect ⟨(key, status) :: entries⟩ key = collect ⟨entries⟩ key := by
          simp [collect]
        rw [hcons, status?_cons, ih]
        by_cases hother : other = key <;> simp [hother]
      · have hcons : collect ⟨(key, status) :: entries⟩ pid =
            ⟨(key, status) :: (collect ⟨entries⟩ pid).entries⟩ := by
          simp [collect, hkey]
        rw [hcons, status?_cons, status?_cons]
        by_cases hother : other = key
        · simp [hother, hkey]
        · simpa [hother] using ih

/-! ## Asking -/

/-- Asking about a child that has ended collects it and tells its end, or an error if the end has no
name. -/
theorem poll_of_ended {cause : Completion} (h : cs.status? pid = some (some cause)) :
    poll pid cs = (cause.answer pid, cs.collect pid) := by
  simp [poll, h]

/-- Whoever asks gets that error about a child that has ended without a name for it, and about
nobody else. -/
theorem poll_eq_invalidArgument_iff : (poll pid cs).1 = .failed .invalidArgument ↔
    ∃ cause, cs.status? pid = some (some cause) ∧ ¬ cause.Nameable := by
  rcases hstatus : cs.status? pid with _ | _ | cause
  · have hanswer : (poll pid cs).1 = strangerAnswer pid := by simp [poll, hstatus]
    have hstranger : strangerAnswer pid ≠ .failed .invalidArgument := by
      unfold strangerAnswer
      split <;> decide
    rw [hanswer]
    exact iff_of_false hstranger fun ⟨_, hnone, _⟩ => nomatch hnone
  · have hanswer : (poll pid cs).1 = .stillAlive := by simp [poll, hstatus]
    rw [hanswer]
    exact iff_of_false nofun fun ⟨_, hruns, _⟩ => nomatch hruns
  · rw [poll_of_ended cs pid hstatus, Completion.answer_eq_invalidArgument_iff]
    constructor
    · exact fun hcause => ⟨cause, rfl, hcause⟩
    · rintro ⟨other, hsame, hcause⟩
      obtain rfl := Option.some.inj (Option.some.inj hsame)
      exact hcause

/-- Asking about a process that has not ended, or is no child, changes nothing. -/
theorem poll_snd_of_not_ended (h : ∀ cause, cs.status? pid ≠ some (some cause)) :
    (poll pid cs).2 = cs := by
  unfold poll
  split
  · next cause hstatus => exact absurd hstatus (h cause)
  · rfl
  · rfl

/-- What is left of the state of a process once somebody has asked about it: an end that was told is
forgotten. -/
def onceAsked : Option (Option Completion) → Option (Option Completion)
  | some (some _) => none
  | some none => some none
  | none => none

@[simp] theorem onceAsked_onceAsked (status : Option (Option Completion)) :
    onceAsked (onceAsked status) = onceAsked status := by
  rcases status with _ | _ | cause <;> rfl

/-- Asking about one process leaves every other as it was. -/
theorem status?_poll (other : ProcessId) :
    (poll pid cs).2.status? other =
      if other = pid then onceAsked (cs.status? pid) else cs.status? other := by
  rcases hstatus : cs.status? pid with _ | _ | cause
  · rw [poll_snd_of_not_ended cs pid (by simp [hstatus])]
    by_cases h : other = pid <;> simp [h, hstatus, onceAsked]
  · rw [poll_snd_of_not_ended cs pid (by simp [hstatus])]
    by_cases h : other = pid <;> simp [h, hstatus, onceAsked]
  · rw [poll_of_ended cs pid hstatus, status?_collect]
    by_cases h : other = pid <;> simp [h, onceAsked]

/-- The answer about a process depends on its status alone. -/
theorem poll_fst_congr {cs cs' : Children} {pid : ProcessId}
    (h : cs.status? pid = cs'.status? pid) : (poll pid cs).1 = (poll pid cs').1 := by
  unfold poll
  rw [h]
  cases cs'.status? pid with
  | none => rfl
  | some status => cases status <;> rfl

/-- Asked about in turn, distinct processes are each found as they stood at first. -/
theorem consult_poll {jobs : List Job} (hdistinct : (jobs.map Job.pid).Nodup) (cs : Children) :
    JobTable.consult poll jobs cs = jobs.map fun job => (job, (poll job.pid cs).1) := by
  induction jobs generalizing cs with
  | nil => rfl
  | cons job jobs ih =>
      rw [List.map_cons, List.nodup_cons] at hdistinct
      rw [JobTable.consult, List.map_cons, ih hdistinct.2]
      refine congrArg _ (List.map_congr_left fun other hother => ?_)
      have hne : other.pid ≠ job.pid := fun heq =>
        hdistinct.1 (heq ▸ List.mem_map_of_mem hother)
      rw [poll_fst_congr ((status?_poll cs job.pid other.pid).trans (if_neg hne))]

/-- A sweep asks about the processes in the table and leaves every other as it was. -/
theorem status?_sweepJobs (jobs : List Job) (cs : Children) (pid : ProcessId) :
    (JobTable.sweepJobs poll jobs cs).world.status? pid =
      if pid ∈ jobs.map Job.pid then onceAsked (cs.status? pid) else cs.status? pid := by
  induction jobs generalizing cs with
  | nil => simp [JobTable.sweepJobs]
  | cons job jobs ih =>
      rw [JobTable.world_sweepJobs_cons, ih, status?_poll, List.map_cons]
      by_cases hpid : pid = job.pid
      · simp [hpid]
      · simp [hpid]

end Children

end Conch
