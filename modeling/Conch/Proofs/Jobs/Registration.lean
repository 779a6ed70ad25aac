import Conch.Proofs.Jobs.Ledger
import Conch.ShellError

/-!
# Registering a process again

To register a process that is tracked changes nothing, in whatever state the table is.  So one
registration more makes no difference to the rest of a run (`run_again`, `replies_again`), whatever
is answered about processes.

What is replied to it is another matter.  The table looks for room before it looks for the process,
so it accepts the registration if there is room for one more process, which the registration does
not need, and a full table refuses it (`reply_again`).

* `replies_append`, `replies_again`: the replies of a run, without and with the registration;
* `again_unnoticed_iff`: when the registration goes unnoticed.
-/

namespace Conch.Ledger

variable {σ : Type} (poll : ProcessId → σ → WaitAnswer × σ)

/-! ## Replies -/

/-- What the caller of a table is told: that the process is tracked, or why it is not, or which jobs
have ended. -/
inductive Reply where
  | registered (outcome : Except ShellError Unit)
  | swept (completed : List Job)

/-- The reply to a step. -/
def reply (l : Ledger σ) : Step → Reply
  | .register pid =>
    match l.table.register? pid with
    | some _ => .registered (.ok ())
    | none => .registered (.error (.jobLimit l.table.capacity))
  | .sweep => .swept (l.table.sweep poll l.world).1

/-- The replies to a series of steps. -/
def replies : Ledger σ → List Step → List Reply
  | _, [] => []
  | l, s :: steps => l.reply poll s :: replies (l.step poll s) steps

/-- An empty table. -/
def empty (capacity : Nat) (world : σ) : Ledger σ :=
  { table := { capacity }, world }

theorem length_replies (l : Ledger σ) (steps : List Step) :
    (replies poll l steps).length = steps.length := by
  induction steps generalizing l with
  | nil => rfl
  | cons s steps ih => rw [replies, List.length_cons, ih, List.length_cons]

/-- The replies to the steps that come later are those of the table that the first ones leave. -/
theorem replies_append (l : Ledger σ) (before after : List Step) :
    replies poll l (before ++ after) =
      replies poll l before ++ replies poll (before.foldl (step poll) l) after := by
  induction before generalizing l with
  | nil => rfl
  | cons s before ih =>
      rw [List.cons_append, replies, replies, ih, List.cons_append, List.foldl_cons]

/-! ## One registration more -/

section Again

variable {l : Ledger σ} {pid : ProcessId} (htracked : pid ∈ l.table.pids)

include htracked

/-- A table that tracks the process takes it in again if there is room, and stays as it is. -/
theorem register?_again :
    l.table.register? pid = if l.table.hasCapacity then some l.table else none := by
  rcases l.table.register?_cases pid with ⟨hfull, hnone⟩ | ⟨hroom, -, hsame⟩ | ⟨-, hnew, -⟩
  · rw [hnone, hfull, if_neg Bool.false_ne_true]
  · rw [hsame, hroom, if_pos rfl]
  · exact absurd htracked hnew

/-- A registration of a process that is tracked already is accepted if there is room for one more
job, and turned down otherwise. -/
theorem reply_again : l.reply poll (.register pid) =
    .registered (if l.table.hasCapacity then .ok () else .error (.jobLimit l.table.capacity)) := by
  rw [reply, register?_again htracked]
  cases l.table.hasCapacity <;> rfl

/-- A process that is tracked already is not entered again: table, world and books are as they were,
whether there is room or not. -/
theorem step_again : l.step poll (.register pid) = l := by
  rw [step, register?_again htracked]
  cases l.table.hasCapacity with
  | false => rfl
  | true => simp [htracked]

end Again

/-- A registration between two parts of a run goes unnoticed.  The table accepts the process and
stays as it is, and the caller is told so; all other replies are those of the run without it, and so
are the table, the world and the books. -/
structure Unnoticed (capacity : Nat) (world : σ) (before : List Step) (pid : ProcessId)
    (after : List Step) : Prop where
  accepted : (run poll capacity world before).table.register? pid =
    some (run poll capacity world before).table
  told : (replies poll (empty capacity world) (before ++ .register pid :: after))[before.length]? =
    some (.registered (.ok ()))
  others : (replies poll (empty capacity world) (before ++ .register pid :: after)).eraseIdx
    before.length = replies poll (empty capacity world) (before ++ after)
  same : run poll capacity world (before ++ .register pid :: after) =
    run poll capacity world (before ++ after)

section Runs

variable {poll} {capacity : Nat} {world : σ} {before : List Step} {pid : ProcessId}
  (htracked : pid ∈ (run poll capacity world before).table.pids)

include htracked

/-- The run goes on as if nothing had been registered. -/
theorem run_again (after : List Step) :
    run poll capacity world (before ++ .register pid :: after) =
      run poll capacity world (before ++ after) := by
  rw [run, List.foldl_append, List.foldl_cons, run, List.foldl_append]
  exact congrArg (fun l => after.foldl (step poll) l) (step_again poll htracked)

/-- There is one reply more, and the others are the same. -/
theorem replies_again (after : List Step) :
    replies poll (empty capacity world) (before ++ .register pid :: after) =
      replies poll (empty capacity world) before ++
        .registered (if (run poll capacity world before).table.hasCapacity then .ok ()
          else .error (.jobLimit capacity)) ::
        replies poll (run poll capacity world before) after := by
  have hcapacity := (sound_run poll capacity world before).capacity_eq
  have hreply := reply_again poll htracked
  rw [hcapacity] at hreply
  rw [replies_append, replies]
  refine congrArg _ (congrArg₂ List.cons hreply ?_)
  exact congrArg (fun l => replies poll l after) (step_again poll htracked)

/-- To register a tracked process once more changes no other reply, whether it is accepted or
not. -/
theorem others_again (after : List Step) :
    (replies poll (empty capacity world) (before ++ .register pid :: after)).eraseIdx
      before.length = replies poll (empty capacity world) (before ++ after) := by
  have hlength := length_replies poll (empty capacity world) before
  rw [replies_again htracked, replies_append, ← hlength,
    List.eraseIdx_append_of_length_le (Nat.le_refl _), Nat.sub_self, List.eraseIdx_cons_zero]
  rfl

end Runs

/-! ## The result -/

/-- There is room if and only if fewer processes are tracked than fit. -/
theorem Sound.hasCapacity_iff {capacity : Nat} {l : Ledger σ} (h : l.Sound capacity) :
    l.table.hasCapacity = true ↔ l.table.pids.length < capacity := by
  rw [JobTable.hasCapacity, decide_eq_true_eq, h.capacity_eq, JobTable.pids, List.length_map]

/-- **A second registration goes unnoticed exactly if there is room for one more job** when it
comes, though it would take none. -/
theorem unnoticed_iff {poll : ProcessId → σ → WaitAnswer × σ} {capacity : Nat} {world : σ}
    {before : List Step} {pid : ProcessId}
    (htracked : pid ∈ (run poll capacity world before).table.pids) (after : List Step) :
    Unnoticed poll capacity world before pid after ↔
      (run poll capacity world before).table.hasCapacity = true := by
  have htold := replies_again htracked after
  have hagain := register?_again htracked
  constructor
  · intro h
    have haccepted := h.accepted
    rw [hagain] at haccepted
    by_contra hfull
    rw [if_neg hfull] at haccepted
    cases haccepted
  · intro hroom
    rw [hroom, if_pos rfl] at hagain htold
    refine ⟨hagain, ?_, others_again htracked after, run_again htracked after⟩
    have hlength := length_replies poll (empty capacity world) before
    rw [htold, ← hlength, List.getElem?_append_right (Nat.le_refl _), Nat.sub_self]
    rfl

/-- To register a process twice is to register it once if and only if there is still room after
that. -/
theorem register?_twice_iff {t t' : JobTable} {pid : ProcessId} (h : t.register? pid = some t') :
    t'.register? pid = some t' ↔ t'.hasCapacity = true := by
  have htracked : pid ∈ t'.pids := by
    rcases t.register?_cases pid with ⟨-, hnone⟩ | ⟨-, hin, hsame⟩ | ⟨-, -, hnew⟩
    · rw [hnone] at h
      cases h
    · rw [hsame] at h
      cases h
      exact hin
    · rw [hnew] at h
      cases h
      simp [JobTable.pids]
  have hagain := register?_again (l := { table := t', world := () }) htracked
  change t'.register? pid = _ at hagain
  rw [hagain]
  cases t'.hasCapacity <;> simp

/-- **To register a tracked process again goes unnoticed if and only if the table is not full.**
Whatever the capacity, the order of registrations and sweeps before and after and the answers about
processes are: a full table refuses the registration, as if it were of another process.  In any case
the table stays as it is, and so do the other replies and the rest of the run.  And in every table
that a run comes to, to register any process twice is to register it once if and only if the first
registration does not fill the table. -/
theorem again_unnoticed_iff (poll : ProcessId → σ → WaitAnswer × σ) (capacity : Nat) (world : σ)
    (before after : List Step) (pid : ProcessId)
    (htracked : pid ∈ (run poll capacity world before).table.pids) :
    (Unnoticed poll capacity world before pid after ↔
      (run poll capacity world before).table.pids.length < capacity) ∧
    ((run poll capacity world before).table.pids.length = capacity →
      replies poll (empty capacity world) (before ++ .register pid :: after) =
        replies poll (empty capacity world) before ++
          .registered (.error (.jobLimit capacity)) ::
          replies poll (run poll capacity world before) after) ∧
    (replies poll (empty capacity world) (before ++ .register pid :: after)).eraseIdx
      before.length = replies poll (empty capacity world) (before ++ after) ∧
    run poll capacity world (before ++ .register pid :: after) =
      run poll capacity world (before ++ after) ∧
    ∀ other t', (run poll capacity world before).table.register? other = some t' →
      (t'.register? other = some t' ↔ t'.pids.length < capacity) := by
  have hsound := sound_run poll capacity world before
  refine ⟨?_, ?_, others_again htracked after, run_again htracked after, ?_⟩
  · rw [unnoticed_iff htracked, hsound.hasCapacity_iff]
  · intro hfull
    have hnone : ¬ (run poll capacity world before).table.hasCapacity = true := by
      rw [hsound.hasCapacity_iff]
      omega
    rw [replies_again htracked, if_neg hnone]
  · intro other t' hregister
    have hnext : Sound capacity ((run poll capacity world before).step poll (.register other)) :=
      sound_register hsound other
    rw [step, hregister] at hnext
    rw [register?_twice_iff hregister]
    exact hnext.hasCapacity_iff

/-- Whoever is asked about a process says that it is still alive. -/
def allAlive : ProcessId → Unit → WaitAnswer × Unit
  | _, world => (.stillAlive, world)

/-- In a table for two the only process can be registered again at any time. -/
theorem again_unnoticed_with_room :
    ⟨7⟩ ∈ (run allAlive 2 () [.register ⟨7⟩, .sweep]).table.pids ∧
    Unnoticed allAlive 2 () [.register ⟨7⟩, .sweep] ⟨7⟩ [.register ⟨8⟩, .sweep] := by
  have htracked : ⟨7⟩ ∈ (run allAlive 2 () [.register ⟨7⟩, .sweep]).table.pids := by decide
  have hroom : (run allAlive 2 () [.register ⟨7⟩, .sweep]).table.pids.length < 2 := by decide
  exact ⟨htracked, (again_unnoticed_iff allAlive 2 () [.register ⟨7⟩, .sweep]
    [.register ⟨8⟩, .sweep] ⟨7⟩ htracked).1.mpr hroom⟩

/-- A table for one refuses the process that it tracks. -/
theorem again_refused_when_full :
    ⟨1000003⟩ ∈ (run allAlive 1 () [.register ⟨1000003⟩]).table.pids ∧
    replies allAlive (empty 1 ()) [.register ⟨1000003⟩, .register ⟨1000003⟩] =
      [.registered (.ok ()), .registered (.error (.jobLimit 1))] ∧
    ¬ Unnoticed allAlive 1 () [.register ⟨1000003⟩] ⟨1000003⟩ [] := by
  refine ⟨by decide, rfl, ?_⟩
  intro h
  have hnone : (run allAlive 1 () [.register ⟨1000003⟩]).table.register? ⟨1000003⟩ = none := by
    decide
  have haccepted := h.accepted
  rw [hnone] at haccepted
  cases haccepted

end Conch.Ledger
