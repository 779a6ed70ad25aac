import Conch.Proofs.Jobs.Sweep
import Mathlib.Data.List.Induction
import Mathlib.Data.List.Nodup

/-!
# The books of a table of jobs

Nothing is assumed here of whoever answers about processes, nor of the order in which a table is
asked to register a process or to sweep.  A `Ledger` is a table with its books: an account is opened
for each process that the table takes in, and it is closed when a sweep reports the job or drops it.

The books are in order (`Regular`): an account is opened only for a process that has none, and
closed only if it is open.  So every entry that opens an account is followed by at most one that
closes it before the account is opened again (`settled_of_regular`), the sums agree
(`shared_of_regular`), and the open accounts, in the order of opening, are the processes in the
table.

* `sweeps_exactly`: what a sweep asks, reports and leaves;
* `sound_step`, `sound_run`: the books are in order after one step and after any number;
* `books_balance`: all of it, in every run.
-/

namespace Conch

/-- An entry in the books of a table: it took in a process, a sweep reported a job, or a sweep
dropped a process. -/
inductive Ledger.Entry where
  | opened (pid : ProcessId)
  | reported (job : Job)
  | dropped (pid : ProcessId)
  deriving DecidableEq, Repr

/-- What a table can be asked to do. -/
inductive Ledger.Step where
  | register (pid : ProcessId)
  | sweep
  deriving DecidableEq, Repr

/-- A table of jobs in a world, with its books, oldest entry first. -/
structure Ledger (σ : Type) where
  table : JobTable
  world : σ
  entries : List Ledger.Entry := []

namespace JobTable

variable {σ : Type} (poll : ProcessId → σ → WaitAnswer × σ)

/-- The processes about which a sweep hears that nobody knows them. -/
def lost (jobs : List Job) (world : σ) : List ProcessId :=
  (consult poll jobs world).filterMap lost?

/-- The part of a list without repetitions that a sublist of it takes up. -/
theorem filter_mem_of_sublist {pids kept : List ProcessId} (hkept : kept.Sublist pids)
    (hdistinct : pids.Nodup) : pids.filter (· ∈ kept) = kept := by
  have hall : kept.filter (· ∈ kept) = kept := List.filter_eq_self.mpr (by simp)
  have hsub := hkept.filter (· ∈ kept)
  rw [hall] at hsub
  have hperm : kept.Perm (pids.filter (· ∈ kept)) := by
    refine (List.perm_ext_iff_of_nodup (hdistinct.sublist hkept) (hdistinct.filter _)).mpr ?_
    intro pid
    simpa using fun h => hkept.subset h
  exact (hsub.eq_of_length hperm.length_eq).symm

end JobTable

namespace Ledger

open JobTable (lost consult map_fst_consult)

/-! ## Books -/

namespace Entry

/-- The process that an entry is about. -/
def pid : Entry → ProcessId
  | opened pid => pid
  | reported job => job.pid
  | dropped pid => pid

/-- The accounts that are open after an entry. -/
def post (accounts : List ProcessId) : Entry → List ProcessId
  | opened pid => accounts ++ [pid]
  | reported job => accounts.filter (· ≠ job.pid)
  | dropped pid => accounts.filter (· ≠ pid)

/-- May the entry be made when these accounts are open? -/
def Fits (accounts : List ProcessId) : Entry → Prop
  | opened pid => pid ∉ accounts
  | reported job => job.pid ∈ accounts ∧ job.isCompleted = true
  | dropped pid => pid ∈ accounts

def opened? : Entry → Option ProcessId
  | opened pid => some pid
  | reported _ | dropped _ => none

def reported? : Entry → Option Job
  | reported job => some job
  | opened _ | dropped _ => none

def dropped? : Entry → Option ProcessId
  | dropped pid => some pid
  | opened _ | reported _ => none

end Entry

/-- The accounts that are open after a series of entries. -/
def accounts (entries : List Entry) : List ProcessId :=
  entries.foldl Entry.post []

/-- Every entry fits the accounts that are open when it is made. -/
def Regular : List ProcessId → List Entry → Prop
  | _, [] => True
  | open', entry :: entries => entry.Fits open' ∧ Regular (entry.post open') entries

section Books

variable {open' : List ProcessId} {entries : List Entry}

/-- Books are regular exactly if their first part is, and the rest is with the accounts that the
first part leaves open. -/
theorem regular_append (more : List Entry) :
    Regular open' (entries ++ more) ↔
      Regular open' entries ∧ Regular (entries.foldl Entry.post open') more := by
  induction entries generalizing open' with
  | nil => simp [Regular]
  | cons entry entries ih =>
      rw [List.cons_append, Regular, Regular, ih, and_assoc, List.foldl_cons]

/-- An entry that opens no account closes the one that it is about. -/
theorem mem_post {entry : Entry} (hclosing : entry.opened? = none) {pid : ProcessId} :
    pid ∈ entry.post open' ↔ pid ∈ open' ∧ pid ≠ entry.pid := by
  cases entry with
  | opened other => exact absurd hclosing (Option.some_ne_none other)
  | reported job => simp [Entry.post, Entry.pid]
  | dropped other => simp [Entry.post, Entry.pid]

/-- No account comes to be open twice by an entry that fits. -/
theorem nodup_post (hdistinct : open'.Nodup) {entry : Entry} (hfits : entry.Fits open') :
    (entry.post open').Nodup := by
  cases entry with
  | opened pid =>
      have hnew : pid ∉ open' := hfits
      rw [Entry.post, ← List.concat_eq_append]
      exact List.Nodup.concat hnew hdistinct
  | reported job => exact hdistinct.filter _
  | dropped pid => exact hdistinct.filter _

/-- Regular books never leave an account open twice, if none was to begin with. -/
theorem nodup_of_regular (hdistinct : open'.Nodup) (hregular : Regular open' entries) :
    (entries.foldl Entry.post open').Nodup := by
  induction entries generalizing open' with
  | nil => exact hdistinct
  | cons entry entries ih => exact ih (nodup_post hdistinct hregular.1) hregular.2

/-- An open account stays open until an entry about it closes it. -/
theorem settled_of_regular {pid : ProcessId} (hopen : pid ∈ open')
    (hregular : Regular open' entries) :
    (entries.find? (·.pid = pid) = none ∧ pid ∈ entries.foldl Entry.post open') ∨
    (∃ job, entries.find? (·.pid = pid) = some (.reported job) ∧ job.isCompleted = true) ∨
    entries.find? (·.pid = pid) = some (.dropped pid) := by
  induction entries generalizing open' with
  | nil => exact .inl ⟨rfl, hopen⟩
  | cons entry entries ih =>
      obtain ⟨hfits, hrest⟩ := hregular
      by_cases habout : entry.pid = pid
      · have hfound : (entry :: entries).find? (·.pid = pid) = some entry := by simp [habout]
        rw [hfound]
        cases entry with
        | opened other =>
            obtain rfl : other = pid := habout
            exact absurd hopen hfits
        | reported job => exact .inr (.inl ⟨job, rfl, hfits.2⟩)
        | dropped other =>
            obtain rfl : other = pid := habout
            exact .inr (.inr rfl)
      · have hstill : pid ∈ entry.post open' := by
          cases entry with
          | opened other => exact List.mem_append_left _ hopen
          | reported job => exact (mem_post rfl).mpr ⟨hopen, Ne.symm habout⟩
          | dropped other => exact (mem_post rfl).mpr ⟨hopen, Ne.symm habout⟩
        have hskip : (entry :: entries).find? (·.pid = pid) = entries.find? (·.pid = pid) := by
          simp [habout]
        rw [hskip, List.foldl_cons]
        exact ih hstill hrest

/-- To close an account is to take it out of those that are open. -/
theorem perm_close (hdistinct : open'.Nodup) {pid : ProcessId} (hopen : pid ∈ open') :
    open'.Perm (pid :: open'.filter (· ≠ pid)) := by
  have herase : open'.erase pid = open'.filter (· ≠ pid) := by
    rw [hdistinct.erase_eq_filter]
    refine List.filter_congr fun other _ => ?_
    by_cases h : other = pid <;> simp [h]
  rw [← herase]
  exact List.perm_cons_erase hopen

/-- **The sums agree**: what was open, and was opened since, was reported, or dropped, or is
open. -/
theorem shared_of_regular (hdistinct : open'.Nodup) (hregular : Regular open' entries) :
    (open' ++ entries.filterMap Entry.opened?).Perm
      ((entries.filterMap Entry.reported?).map Job.pid ++
        (entries.filterMap Entry.dropped? ++ entries.foldl Entry.post open')) := by
  induction entries generalizing open' with
  | nil => simp
  | cons entry entries ih =>
      have hrest := ih (nodup_post hdistinct hregular.1) hregular.2
      cases entry with
      | opened pid =>
          simp only [List.filterMap_cons, Entry.opened?, Entry.reported?, Entry.dropped?,
            List.foldl_cons]
          rw [List.append_cons]
          exact hrest
      | reported job =>
          have hclosed := (perm_close hdistinct hregular.1.1).append_right
            (entries.filterMap Entry.opened?)
          simp only [List.filterMap_cons, Entry.opened?, Entry.reported?, Entry.dropped?,
            List.map_cons, List.cons_append, List.foldl_cons]
          exact hclosed.trans (hrest.cons job.pid)
      | dropped pid =>
          have hclosed := (perm_close hdistinct hregular.1).append_right
            (entries.filterMap Entry.opened?)
          simp only [List.filterMap_cons, Entry.opened?, Entry.reported?, Entry.dropped?,
            List.cons_append, List.foldl_cons]
          exact (hclosed.trans (hrest.cons pid)).trans List.perm_middle.symm

/-- Entries that close accounts close those that they are about. -/
theorem foldl_post_of_closing (hclosing : ∀ entry ∈ entries, entry.opened? = none) :
    entries.foldl Entry.post open' = open'.filter (· ∉ entries.map Entry.pid) := by
  induction entries generalizing open' with
  | nil => simp
  | cons entry entries ih =>
      have hpost : entry.post open' = open'.filter (· ≠ entry.pid) := by
        have hfirst := hclosing entry List.mem_cons_self
        cases entry with
        | opened pid => exact absurd hfirst (Option.some_ne_none pid)
        | reported job => rfl
        | dropped pid => rfl
      rw [List.foldl_cons, hpost, ih fun other h => hclosing other (List.mem_cons_of_mem _ h),
        List.filter_filter]
      refine List.filter_congr fun pid _ => ?_
      simp [Bool.and_comm]

/-- Several accounts that are open can be closed one after the other. -/
theorem regular_of_closing (hclosing : ∀ entry ∈ entries, entry.Fits open')
    (hnone : ∀ entry ∈ entries, entry.opened? = none)
    (hdistinct : (entries.map Entry.pid).Nodup) : Regular open' entries := by
  induction entries generalizing open' with
  | nil => trivial
  | cons entry entries ih =>
      rw [List.map_cons, List.nodup_cons] at hdistinct
      refine ⟨hclosing entry List.mem_cons_self, ih (fun other hother => ?_)
        (fun other h => hnone other (List.mem_cons_of_mem _ h)) hdistinct.2⟩
      have hne : other.pid ≠ entry.pid := fun h =>
        hdistinct.1 (h ▸ List.mem_map_of_mem hother)
      have hfits := hclosing other (List.mem_cons_of_mem _ hother)
      have hstill : ∀ {pid}, pid ∈ open' → pid ≠ entry.pid → pid ∈ entry.post open' :=
        fun hin hne => (mem_post (hnone entry List.mem_cons_self)).mpr ⟨hin, hne⟩
      cases other with
      | opened pid =>
          exact absurd (hnone _ (List.mem_cons_of_mem _ hother)) (Option.some_ne_none pid)
      | reported job => exact ⟨hstill hfits.1 hne, hfits.2⟩
      | dropped pid => exact hstill hfits hne

end Books

/-! ## Sweeps -/

section Sweeps

variable {σ : Type} (poll : ProcessId → σ → WaitAnswer × σ) (t : JobTable) (world : σ)

/-- Somebody who answers about processes and notes what was asked and answered. -/
def noting : ProcessId → σ × List (ProcessId × WaitAnswer) →
    WaitAnswer × (σ × List (ProcessId × WaitAnswer))
  | pid, (world, asked) =>
    ((poll pid world).1, (poll pid world).2, asked ++ [(pid, (poll pid world).1)])

/-- The report that an answer about a job calls for. -/
def reportOn : Job × WaitAnswer → Option Job
  | (job, .exited _ code) => some { pid := job.pid, cause := some (.exited code) }
  | (job, .killed _ signal _) => some { pid := job.pid, cause := some (.killed signal) }
  | (_, .stopped ..) | (_, .continued _) | (_, .stillAlive) | (_, .failed _) => none

/-- Is the answer that there is no such child? -/
def denies (asked : Job × WaitAnswer) : Bool :=
  asked.2 = .failed .noChild

/-- What a sweep does.  It asks about the tracked processes, about each once and in order, and to
note that changes nothing.  It reports the jobs of the processes that have exited or were killed, in
order, drops those that nobody knows, and leaves all others as they were and in order. -/
structure SweepsExactly : Prop where
  asks : t.sweep (noting poll) (world, []) =
    ((t.sweep poll world).1, (t.sweep poll world).2.1, (t.sweep poll world).2.2,
      (consult poll t.jobs world).map fun asked => (asked.1.pid, asked.2))
  once : (consult poll t.jobs world).map Prod.fst = t.jobs
  reports : (t.sweep poll world).1 = (consult poll t.jobs world).filterMap reportOn
  completed : ∀ job ∈ (t.sweep poll world).1, job.stateText = "Completed"
  drops : lost poll t.jobs world =
    ((consult poll t.jobs world).filter denies).map fun asked => asked.1.pid
  leaves : (t.sweep poll world).2.1 = { t with
    jobs := ((consult poll t.jobs world).filter fun asked =>
      (reportOn asked).isNone && !denies asked).map Prod.fst }

/-- The reports of the table are those of the rule: of the jobs whose process has exited or was
killed, with the cause. -/
theorem report?_eq (asked : Job × WaitAnswer) : JobTable.report? asked = reportOn asked := by
  obtain ⟨job, answer⟩ := asked
  cases answer with
  | failed errno =>
      by_cases h : errno = .noChild <;>
        simp [JobTable.report?, WaitAnswer.verdict, WaitAnswer.completion?, reportOn, h]
  | _ => simp [JobTable.report?, WaitAnswer.verdict, WaitAnswer.completion?, reportOn,
      Job.markCompleted]

/-- The table drops a process exactly if the answer denies that there is such a child. -/
theorem lost?_eq (asked : Job × WaitAnswer) :
    JobTable.lost? asked = if denies asked then some asked.1.pid else none := by
  obtain ⟨job, answer⟩ := asked
  cases answer with
  | failed errno =>
      by_cases h : errno = .noChild <;>
        simp [JobTable.lost?, WaitAnswer.verdict, WaitAnswer.completion?, denies, h]
  | _ => simp [JobTable.lost?, WaitAnswer.verdict, WaitAnswer.completion?, denies]

/-- A job stays in the table exactly if it is neither reported nor dropped. -/
theorem stays?_eq (asked : Job × WaitAnswer) : JobTable.stays? asked =
    if (reportOn asked).isNone && !denies asked then some asked.1 else none := by
  obtain ⟨job, answer⟩ := asked
  cases answer with
  | failed errno =>
      by_cases h : errno = .noChild <;>
        simp [JobTable.stays?, WaitAnswer.verdict, WaitAnswer.completion?, reportOn, denies, h]
  | _ => simp [JobTable.stays?, WaitAnswer.verdict, WaitAnswer.completion?, reportOn, denies]

/-- What is noted during a sweep is what is asked and answered. -/
theorem sweepJobs_noting (jobs : List Job) (world : σ) (asked : List (ProcessId × WaitAnswer)) :
    JobTable.sweepJobs (noting poll) jobs (world, asked) =
      { completed := (JobTable.sweepJobs poll jobs world).completed
        remaining := (JobTable.sweepJobs poll jobs world).remaining
        world := ((JobTable.sweepJobs poll jobs world).world,
          asked ++ (consult poll jobs world).map fun asked => (asked.1.pid, asked.2)) } := by
  induction jobs generalizing world asked with
  | nil => simp [JobTable.sweepJobs, consult]
  | cons job jobs ih =>
      have hfirst : noting poll job.pid (world, asked) = ((poll job.pid world).1,
          (poll job.pid world).2, asked ++ [(job.pid, (poll job.pid world).1)]) := rfl
      rw [JobTable.sweepJobs_cons, JobTable.sweepJobs_cons, hfirst]
      simp only [ih, consult, List.map_cons, List.append_assoc, List.singleton_append]
      cases (poll job.pid world).1.verdict <;> rfl

/-- What a sweep reports has ended, by the state that it shows. -/
theorem isCompleted_of_mem_sweep {job : Job} (hjob : job ∈ (t.sweep poll world).1) :
    job.isCompleted = true := by
  have hreports : (t.sweep poll world).1 = (consult poll t.jobs world).filterMap reportOn :=
    (JobTable.completed_eq poll t.jobs world).trans (List.filterMap_congr fun asked _ =>
      report?_eq asked)
  rw [hreports] at hjob
  obtain ⟨⟨asked, answer⟩, -, hreport⟩ := List.mem_filterMap.mp hjob
  cases answer with
  | exited pid code =>
      obtain rfl := Option.some.inj hreport
      rfl
  | killed pid signal coreDumped =>
      obtain rfl := Option.some.inj hreport
      rfl
  | _ => exact nomatch hreport

/-- **Each answer decides alone what becomes of its job**: it is reported, dropped or left as it
was, whatever the other answers are. -/
theorem sweeps_exactly : SweepsExactly poll t world where
  asks := by
    rw [JobTable.sweep, sweepJobs_noting]
    rfl
  once := map_fst_consult poll t.jobs world
  reports := (JobTable.completed_eq poll t.jobs world).trans
    (List.filterMap_congr fun asked _ => report?_eq asked)
  completed := fun job hjob => by
    rw [Job.stateText, if_pos (isCompleted_of_mem_sweep poll t world hjob)]
  drops := by
    rw [lost, ← List.filterMap_eq_map, List.filterMap_filter]
    exact List.filterMap_congr fun asked _ => lost?_eq asked
  leaves := by
    have hremaining := JobTable.remaining_eq poll t.jobs world
    rw [← List.filterMap_eq_map, List.filterMap_filter]
    exact congrArg (fun jobs => { t with jobs }) (hremaining.trans
      (List.filterMap_congr fun asked _ => stays?_eq asked))

end Sweeps

/-! ## Steps -/

section Steps

variable {σ : Type} (poll : ProcessId → σ → WaitAnswer × σ)

/-- What a sweep enters in the books. -/
def closings (t : JobTable) (world : σ) : List Entry :=
  (t.sweep poll world).1.map .reported ++ (lost poll t.jobs world).map .dropped

/-- The table and its books after a step. -/
def step (l : Ledger σ) : Step → Ledger σ
  | .register pid =>
    match l.table.register? pid with
    | some table =>
      { l with
        table
        entries := if pid ∈ l.table.pids then l.entries else l.entries ++ [.opened pid] }
    | none => l
  | .sweep =>
    { table := (l.table.sweep poll l.world).2.1
      world := (l.table.sweep poll l.world).2.2
      entries := l.entries ++ closings poll l.table l.world }

/-- An empty table after a series of steps. -/
def run (capacity : Nat) (world : σ) (steps : List Step) : Ledger σ :=
  steps.foldl (step poll) { table := { capacity }, world }

theorem run_append (capacity : Nat) (world : σ) (steps : List Step) (s : Step) :
    run poll capacity world (steps ++ [s]) = (run poll capacity world steps).step poll s := by
  rw [run, List.foldl_append]
  rfl

/-- What the books and the table keep true. -/
structure Sound (capacity : Nat) (l : Ledger σ) : Prop where
  capacity_eq : l.table.capacity = capacity
  bounded : l.table.jobs.length ≤ capacity
  running : ∀ job ∈ l.table.jobs, job.cause = none
  ordered : l.table.pids = accounts l.entries
  regular : Regular [] l.entries

variable {poll} {capacity : Nat} {l : Ledger σ}

/-- In sound books no process is tracked twice, since the tracked processes are the open accounts,
and these are distinct. -/
theorem Sound.distinct (h : l.Sound capacity) : l.table.pids.Nodup := by
  rw [h.ordered]
  exact nodup_of_regular List.nodup_nil h.regular

variable (poll) in
/-- The processes that a sweep takes out of a table are tracked, and none of them stays. -/
theorem pids_sweep {t : JobTable} (world : σ) (hdistinct : t.pids.Nodup) :
    (t.sweep poll world).2.1.pids =
        t.pids.filter (· ∉ (closings poll t world).map Entry.pid) ∧
      ((closings poll t world).map Entry.pid).Nodup ∧
      ∀ entry ∈ closings poll t world, entry.Fits t.pids ∧ entry.opened? = none := by
  have habout : (closings poll t world).map Entry.pid =
      (t.sweep poll world).1.map Job.pid ++ lost poll t.jobs world := by
    rw [closings, List.map_append, List.map_map, List.map_map]
    exact congrArg _ (List.map_id _)
  have hshared : t.pids.Perm ((t.sweep poll world).1.map Job.pid ++
      (lost poll t.jobs world ++ (t.sweep poll world).2.1.pids)) :=
    JobTable.pids_perm poll t.jobs world
  rw [← List.append_assoc, ← habout] at hshared
  have hall := hshared.nodup_iff.mp hdistinct
  obtain ⟨hclosed, -, hapart⟩ := List.nodup_append.mp hall
  have hkept : (t.sweep poll world).2.1.pids.Sublist t.pids :=
    (JobTable.remaining_sublist poll t.jobs world).map Job.pid
  refine ⟨?_, hclosed, fun entry hentry => ?_⟩
  · rw [← JobTable.filter_mem_of_sublist hkept hdistinct]
    refine List.filter_congr fun pid hpid => decide_eq_decide.mpr ⟨fun hstays hleaves => ?_,
      fun hleaves => ?_⟩
    · exact hapart pid hleaves pid hstays rfl
    · exact (List.mem_append.mp (hshared.mem_iff.mp hpid)).resolve_left hleaves
  · have hpid : entry.pid ∈ t.pids :=
      hshared.mem_iff.mpr (List.mem_append_left _ (List.mem_map_of_mem hentry))
    rcases List.mem_append.mp hentry with hentry | hentry
    · obtain ⟨job, hjob, rfl⟩ := List.mem_map.mp hentry
      exact ⟨⟨hpid, isCompleted_of_mem_sweep poll t world hjob⟩, rfl⟩
    · obtain ⟨pid, -, rfl⟩ := List.mem_map.mp hentry
      exact ⟨hpid, rfl⟩

/-- A sweep books a report or a drop for each process that leaves the table, and so keeps the books
sound. -/
theorem sound_sweep (h : l.Sound capacity) : (l.step poll .sweep).Sound capacity := by
  obtain ⟨hpids, hclosings, hfits⟩ := pids_sweep poll l.world h.distinct
  have hkept : (l.table.sweep poll l.world).2.1.jobs.Sublist l.table.jobs :=
    JobTable.remaining_sublist _ _ _
  refine ⟨h.capacity_eq, Nat.le_trans hkept.length_le h.bounded,
    fun job hjob => h.running job (hkept.subset hjob), ?_, ?_⟩
  · have hclosed : (closings poll l.table l.world).foldl Entry.post (accounts l.entries) =
        (accounts l.entries).filter (· ∉ (closings poll l.table l.world).map Entry.pid) :=
      foldl_post_of_closing fun entry hentry => (hfits entry hentry).2
    rw [accounts, step, List.foldl_append]
    exact (hpids.trans (h.ordered ▸ rfl)).trans hclosed.symm
  · rw [step, regular_append]
    refine ⟨h.regular, ?_⟩
    have hopen : l.entries.foldl Entry.post [] = l.table.pids := h.ordered.symm
    rw [hopen]
    exact regular_of_closing (fun entry hentry => (hfits entry hentry).1)
      (fun entry hentry => (hfits entry hentry).2) hclosings

/-- A registration opens an account for a process that is taken in, and for no other, and so keeps
the books sound. -/
theorem sound_register (h : l.Sound capacity) (pid : ProcessId) :
    (l.step poll (.register pid)).Sound capacity := by
  rcases l.table.register?_cases pid with ⟨-, hnone⟩ | ⟨-, hpid, hsame⟩ | ⟨hroom, hpid, hnew⟩
  · rw [step, hnone]
    exact h
  · rw [step, hsame]
    simp only [hpid, if_true]
    exact h
  · have hopen : l.entries.foldl Entry.post [] = l.table.pids := h.ordered.symm
    rw [step, hnew]
    simp only [hpid, if_false]
    refine ⟨h.capacity_eq, ?_, fun job hjob => ?_, ?_, ?_⟩
    · have hlt : l.table.jobs.length < l.table.capacity := of_decide_eq_true hroom
      have hcapacity := h.capacity_eq
      simp only [List.length_append, List.length_singleton]
      omega
    · rcases List.mem_append.mp hjob with hjob | hjob
      · exact h.running job hjob
      · obtain rfl := List.mem_singleton.mp hjob
        rfl
    · rw [accounts, List.foldl_append, hopen]
      simp [JobTable.pids, Entry.post]
    · rw [regular_append, hopen]
      exact ⟨h.regular, hpid, trivial⟩

/-- **What one step preserves**: the books are sound after a sweep and after a registration,
whatever the system answers. -/
theorem sound_step (h : l.Sound capacity) (s : Step) : (l.step poll s).Sound capacity := by
  cases s with
  | register pid => exact sound_register h pid
  | sweep => exact sound_sweep h

/-- **What any number of steps preserves**: the books are sound at any time, from the empty table
on. -/
theorem sound_run (poll : ProcessId → σ → WaitAnswer × σ) (capacity : Nat) (world : σ)
    (steps : List Step) : (run poll capacity world steps).Sound capacity := by
  induction steps using List.reverseRec with
  | nil => exact ⟨rfl, Nat.zero_le _, fun _ h => absurd h List.not_mem_nil, rfl, trivial⟩
  | append_singleton steps s ih =>
      rw [run_append]
      exact sound_step ih s

end Steps

/-! ## The result -/

section Result

variable {σ : Type}

/-- The books of a table are in order.  No process is tracked twice, there are never too many, and
every tracked job is running.  The processes in the table are the open accounts, in the order of
opening, and each entry opens an account that is not open or closes one that is.

A process that was taken in is tracked as long as no entry is about it; and the first entry about
it, if there is one, reports it as completed or drops it.  So the processes that were taken in are
shared out between those that were reported, those that were dropped and those that are tracked. -/
structure Balanced (capacity : Nat) (l : Ledger σ) : Prop where
  distinct : l.table.pids.Nodup
  bounded : l.table.pids.length ≤ capacity
  running : ∀ job ∈ l.table.jobs, job.stateText = "Running" ∧ job.cause = none
  ordered : l.table.pids = accounts l.entries
  regular : ∀ before entry after, l.entries = before ++ entry :: after →
    entry.Fits (accounts before)
  settled : ∀ before pid after, l.entries = before ++ .opened pid :: after →
    (after.find? (·.pid = pid) = none ∧ pid ∈ l.table.pids) ∨
    (∃ job, after.find? (·.pid = pid) = some (.reported job) ∧ job.stateText = "Completed") ∨
    after.find? (·.pid = pid) = some (.dropped pid)
  shared : (l.entries.filterMap Entry.opened?).Perm
    ((l.entries.filterMap Entry.reported?).map Job.pid ++
      (l.entries.filterMap Entry.dropped? ++ l.table.pids))

/-- Sound books have all the properties that are asked of books in order; each follows from
regularity and from what is tracked. -/
theorem Sound.balanced {capacity : Nat} {l : Ledger σ} (h : l.Sound capacity) :
    l.Balanced capacity where
  distinct := h.distinct
  bounded := by
    rw [JobTable.pids, List.length_map]
    exact h.bounded
  running := fun job hjob => by
    simp [Job.stateText, Job.isCompleted, h.running job hjob]
  ordered := h.ordered
  regular := fun before entry after hsplit => by
    have hregular := h.regular
    rw [hsplit, regular_append] at hregular
    exact hregular.2.1
  settled := fun before pid after hsplit => by
    have hregular := h.regular
    have hordered := h.ordered
    rw [hsplit, regular_append] at hregular
    rw [hsplit, accounts, List.foldl_append, List.foldl_cons] at hordered
    obtain ⟨-, -, hafter⟩ := hregular
    have hopen : pid ∈ (Entry.opened pid).post (before.foldl Entry.post []) := by
      simp [Entry.post]
    rw [hordered]
    rcases settled_of_regular hopen hafter with hopen | ⟨job, hjob, hcompleted⟩ | hdropped
    · exact .inl hopen
    · exact .inr (.inl ⟨job, hjob, if_pos hcompleted⟩)
    · exact .inr (.inr hdropped)
  shared := by
    rw [h.ordered]
    exact shared_of_regular List.nodup_nil h.regular

/-- **The books balance in every run.**  Whatever the capacity, the order of registrations and
sweeps and the answers about processes are: no process is tracked twice, and no more than fit; the
tracked jobs run, in order of registration; a registration that is refused, or of a process that is
tracked, changes nothing; a sweep asks about each tracked process once, reports those that have
exited or were killed, drops those that nobody knows, and leaves all others; and every process that
was taken in is still tracked, or was reported once, or was dropped. -/
theorem books_balance (poll : ProcessId → σ → WaitAnswer × σ) (capacity : Nat) (world : σ)
    (steps : List Step) :
    let l := run poll capacity world steps
    l.Balanced capacity ∧ SweepsExactly poll l.table l.world ∧
    (∀ pid, l.table.register? pid = none ∨ pid ∈ l.table.pids →
      l.step poll (.register pid) = l) ∧
    ∀ pid, l.table.hasCapacity = true → pid ∉ l.table.pids → l.step poll (.register pid) =
      { l with
        table := { l.table with jobs := l.table.jobs ++ [{ pid }] }
        entries := l.entries ++ [.opened pid] } := by
  intro l
  refine ⟨(sound_run poll capacity world steps).balanced, sweeps_exactly poll l.table l.world,
    fun pid hold => ?_, fun pid hroom hpid => ?_⟩
  · rcases l.table.register?_cases pid with ⟨-, hnone⟩ | ⟨-, hpid, hsame⟩ | ⟨-, hpid, hnew⟩
    · rw [step, hnone]
    · rw [step, hsame]
      simp only [hpid, if_true]
    · rw [hnew] at hold
      exact absurd (hold.resolve_left (Option.some_ne_none _)) hpid
  · rcases l.table.register?_cases pid with ⟨hfull, -⟩ | ⟨-, hin, -⟩ | ⟨-, -, hnew⟩
    · exact absurd (hfull.symm.trans hroom) Bool.false_ne_true
    · exact absurd hin hpid
    · rw [step, hnew]
      simp only [hpid, if_false]

end Result

end Ledger

end Conch
