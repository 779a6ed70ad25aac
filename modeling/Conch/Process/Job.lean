import Conch.Process.Completion

/-!
# Background jobs

A job is a background process that the shell keeps track of.  The table of jobs holds at most
`capacity` of them, in order of registration.  A sweep asks the system about each tracked
process once, and by the answer the job is reported as completed, dropped, or kept.
-/

namespace Conch

/-- A background process, and how it ended, once that is known. -/
structure Job where
  pid : ProcessId
  cause : Option Completion := none
  deriving DecidableEq, Repr

namespace Job

/-- Is it known how the job ended? -/
def isCompleted (j : Job) : Bool :=
  j.cause.isSome

/-- The state of a job in one word. -/
def stateText (j : Job) : String :=
  if j.isCompleted then "Completed" else "Running"

/-- The job after it ended. -/
def markCompleted (j : Job) (cause : Completion) : Job :=
  { j with cause := some cause }

/-- The line that reports on a job. -/
def text (j : Job) : String :=
  match j.cause with
  | some cause => s!"Background process {j.pid.text} has completed: {cause.text}"
  | none => s!"Background process {j.pid.text} is {j.stateText}"

/-- The line that announces a job. -/
def begunText (pid : ProcessId) : String :=
  s!"Background process {pid.text} has begun"

/-- The fields of a job, for whoever looks into the shell. -/
def dump (j : Job) : String :=
  let cause := match j.cause with
    | some (.exited code) => s!"Some(ExitCode({code}))"
    | some (.killed signal) => s!"Some(TerminatingSignal({signal}))"
    | none => "None"
  s!"Job \x7b pid: ProcessId({j.pid.text}), state: {j.stateText}, " ++
    s!"completion_cause: {cause} \x7d"

end Job

/-- What a sweep does with a job: it has ended and is reported, or somebody else has collected the
process, so that nothing can be said about its end, or it stays in the table. -/
inductive Verdict where
  | completed (cause : Completion)
  | dropped
  | kept
  deriving DecidableEq, Repr

/-- The verdict on a job by the answer about its process.  An error other than "no child" does not
say that the process is gone, so the job stays. -/
def WaitAnswer.verdict (answer : WaitAnswer) : Verdict :=
  match answer.completion? with
  | some (_, cause) => .completed cause
  | none => if answer = .failed .noChild then .dropped else .kept

/-- The jobs that the shell keeps track of, oldest first, and how many it can keep track of at
once. -/
structure JobTable where
  jobs : List Job := []
  capacity : Nat := 200
  deriving DecidableEq, Repr

/-- The outcome of a sweep that went through the table in a world of type `σ`: the jobs that have
ended and those that stay, both in table order, and the world afterwards. -/
structure Sweep (σ : Type) where
  completed : List Job
  remaining : List Job
  world : σ

namespace JobTable

variable {σ : Type}

/-- Is there room for one more job? -/
def hasCapacity (t : JobTable) : Bool :=
  t.jobs.length < t.capacity

/-- The tracked processes, in order. -/
def pids (t : JobTable) : List ProcessId :=
  t.jobs.map Job.pid

/-- Keep track of a process: no table if there is no room.  A process that is tracked already
changes nothing. -/
def register? (t : JobTable) (pid : ProcessId) : Option JobTable :=
  if t.hasCapacity then
    if pid ∈ t.pids then some t
    else some { t with jobs := t.jobs ++ [{ pid }] }
  else none

/-- Ask about each of the jobs once, from the first to the last. -/
def sweepJobs (poll : ProcessId → σ → WaitAnswer × σ) : List Job → σ → Sweep σ
  | [], world => ⟨[], [], world⟩
  | job :: jobs, world =>
    let (answer, world) := poll job.pid world
    let rest := sweepJobs poll jobs world
    match answer.verdict with
    | .completed cause => { rest with completed := job.markCompleted cause :: rest.completed }
    | .dropped => rest
    | .kept => { rest with remaining := job :: rest.remaining }

/-- Ask about every tracked process: the jobs that have ended, the table without those that are
gone, and the world afterwards. -/
def sweep (poll : ProcessId → σ → WaitAnswer × σ) (t : JobTable) (world : σ) :
    List Job × JobTable × σ :=
  let outcome := sweepJobs poll t.jobs world
  (outcome.completed, { t with jobs := outcome.remaining }, outcome.world)

/-- The table, for whoever looks into the shell. -/
def dump (t : JobTable) : String :=
  s!"{t.jobs.length} jobs\tcapacity: {t.capacity}\n" ++
    String.join (t.jobs.map fun job => job.dump ++ "\n")

end JobTable

end Conch
