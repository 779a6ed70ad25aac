import Conch.Proofs.Machine.Neighbours
import Mathlib.Data.List.Basic

/-!
# Waiting for a child that does not take long

The child that the shell waits for goes first.  If it ends within its slice nobody else has gone on
by then, so that what it has done is all that has happened (`awaitEnd_of_goes`).
-/

namespace Conch.Machine

variable {m m' m'' : Machine} {pid other : ProcessId} {goal : Machine → Bool} {n k : Nat}

/-- A process goes on for so many steps, and the goal is not reached before the last one. -/
inductive Goes (goal : Machine → Bool) (pid : ProcessId) : Nat → Machine → Machine → Prop where
  | stay (m : Machine) : Goes goal pid 0 m m
  | step {n : Nat} {m mid m' : Machine} {p : Process} (hshort : goal m = false)
      (hthere : m.process? pid = some p) (hstep : m.step p = some mid)
      (hrest : Goes goal pid n mid m') : Goes goal pid (n + 1) m m'

/-- The goal is not reached before a child of the shell ends or the shell is sent a signal. -/
def Ahead (goal : Machine → Bool) (m : Machine) : Prop :=
  ∀ m' : Machine, m'.children = m.children → m'.inbox = m.inbox → goal m' = false

/-- As long as the goal is ahead it has not been reached. -/
theorem Ahead.short (h : Ahead goal m) : goal m = false :=
  h m rfl rfl

/-- Whether the goal is ahead depends only on the children of the shell and on the signals on their
way to it. -/
theorem Ahead.of_same (h : Ahead goal m) (hchildren : m'.children = m.children)
    (hinbox : m'.inbox = m.inbox) : Ahead goal m' :=
  fun later hlater hsignals => h later (hlater.trans hchildren) (hsignals.trans hinbox)

/-- One step of a process, if the goal is not reached before it. -/
theorem Goes.single {p : Process} (hshort : goal m = false) (hthere : m.process? pid = some p)
    (hstep : m.step p = some m') : Goes goal pid 1 m m' :=
  .step hshort hthere hstep (.stay m')

/-- Steps after steps are as many steps as both together, and the goal is not reached on the way. -/
theorem Goes.trans (h : Goes goal pid n m m') (h' : Goes goal pid k m' m'') :
    Goes goal pid (n + k) m m'' := by
  induction h with
  | stay m =>
      rw [Nat.zero_add]
      exact h'
  | step hshort hthere hstep hrest ih =>
      rw [Nat.add_right_comm]
      exact .step hshort hthere hstep (ih h')

/-- Others are spared by all the steps that a process takes. -/
theorem spares_goes (h : Goes goal pid n m m') (hother : other ≠ pid) : Spares other m m' := by
  induction h with
  | stay m => exact .refl m
  | step hshort hthere hstep hrest ih =>
      have hid := pid_of_process? hthere
      rw [← hid] at hother hthere
      exact (spares_step hthere hother hstep).trans ih

/-- Once the goal is reached nobody goes on, and no step is counted. -/
theorem advance_of_goal (h : goal m = true) (pid : ProcessId) (steps : Nat) :
    advance goal pid steps m = (0, m) := by
  cases steps with
  | zero => rfl
  | succ steps => rw [advance, if_pos h]

/-- **A process that reaches the goal in so many steps** is brought there by whoever lets it go on,
if he lets it take that many. -/
theorem advance_of_goes {steps : Nat} (h : Goes goal pid n m m') (hgoal : goal m' = true)
    (henough : n ≤ steps) : advance goal pid steps m = (n, m') := by
  induction h generalizing steps with
  | stay m => exact advance_of_goal hgoal pid steps
  | step hshort hthere hstep hrest ih =>
      obtain ⟨steps, rfl⟩ : ∃ rest, steps = rest + 1 := ⟨steps - 1, by omega⟩
      have hnext := ih hgoal (Nat.le_of_succ_le_succ henough)
      rw [advance, if_neg (by rw [hshort]; exact Bool.false_ne_true), hthere, Option.bind_some,
        hstep]
      dsimp only
      rw [hnext]

/-- A round in which the first one reaches the goal is over with that. -/
theorem goRound_of_goes (h : Goes goal pid n m m') (hgoal : goal m' = true) (henough : n ≤ slice) :
    m.goRound goal pid = (n, m') := by
  unfold goRound
  rw [List.foldl_cons]
  dsimp only
  rw [advance_of_goes h hgoal henough, Nat.zero_max]
  refine List.foldl_fixed' (fun other => ?_) _
  dsimp only
  rw [advance_of_goal hgoal, Nat.max_zero]

/-- The rounds after the one in which the goal is reached. -/
theorem runUntil_of_goes {sleeps : Bool} {fuel : Nat}
    (h : Goes (fun m => goal m || m.isDoomed) pid n m m') (hsome : 0 < n) (henough : n ≤ slice)
    (hgoal : goal m' = true) : m.runUntil goal sleeps pid (fuel + 1) =
      runUntil goal sleeps pid fuel { m' with clock := m'.clock + n * stepTime } := by
  have hshort : (goal m || m.isDoomed) = false := by
    cases h with
    | stay => exact absurd hsome (Nat.lt_irrefl 0)
    | step hshort => exact hshort
  have hover : (goal m' || m'.isDoomed) = true := by rw [hgoal, Bool.true_or]
  have hround := goRound_of_goes h hover henough
  obtain ⟨k, rfl⟩ : ∃ k, n = k + 1 := ⟨n - 1, by omega⟩
  rw [runUntil, if_neg (by rw [hshort]; exact Bool.false_ne_true), hround]
  rfl

/-- Is the wait for a child over, or has the shell been killed? -/
def isOver (pid : ProcessId) (m : Machine) : Bool :=
  hasEnded pid m || m.isDoomed

/-- Who waits for a child that runs has this end ahead, while no signal is on its way. -/
theorem ahead_isOver (hruns : m.children.status? pid = some none) (hinbox : m.inbox = []) :
    Ahead (isOver pid) m := by
  intro m' hchildren hsame
  rw [isOver, hasEnded, hchildren, hruns, isDoomed, hsame, hinbox]
  rfl

/-- **A child that ends within its slice** is all that the shell has to wait for. -/
theorem awaitEnd_of_goes (h : Goes (isOver pid) pid n m m') (hsome : 0 < n) (henough : n ≤ slice)
    (hended : hasEnded pid m' = true) :
    m.awaitEnd pid = { m' with clock := m'.clock + n * stepTime } := by
  have hover : isOver pid { m' with clock := m'.clock + n * stepTime } = true := by
    rw [isOver]
    exact Bool.or_eq_true_iff.mpr (.inl hended)
  have hpatience : patience = 999998 + 1 + 1 := rfl
  rw [awaitEnd, hpatience, runUntil_of_goes h hsome henough hended, runUntil]
  exact if_pos hover

end Conch.Machine
