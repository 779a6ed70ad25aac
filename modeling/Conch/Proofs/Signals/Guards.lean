import Conch.Signal
import Mathlib.Data.List.Induction

/-!
# Guards over the control signals

What happens to the control signals of a process is a series of steps: a signal is raised, a guard
is taken or given up, a disposition is installed.  A `Watch` follows the process through them and
notes each signal that is delivered, with the disposition it meets; the process itself notices
nothing of that (`fate_step`).

Guards are given up in the reverse order, so each of them finds the mask that the one before it
has left.  As long as one is held all control signals are blocked, nothing is delivered, and all
that the steps can change is what is installed and what waits to be delivered (`run_held`).  The
last guard puts back the mask that was there before it, and what waits is delivered then
(`setBlocked_of_handled`, for a process that handles its control signals).
-/

namespace Conch

/-- Something that happens to the control signals of a process: somebody raises one, or the process
takes a guard, which blocks them all, installs the disposition of one, or gives up its youngest
guard. -/
inductive SignalStep where
  | raise (c : ControlSignal)
  | hold
  | install (c : ControlSignal) (d : Disposition)
  | letGo
  deriving DecidableEq, Repr

namespace SignalStep

/-- The steps that install a set of handlers. -/
def installs (set : HandlerSet) : List SignalStep :=
  ControlSignal.all.map fun c => .install c (set.disposition c)

/-- Does the step install a disposition? -/
def isInstall : SignalStep → Bool
  | install _ _ => true
  | raise _ | hold | letGo => false

/-- How many guards are held after some steps, besides those that were held all along; there were
`n` before.  Nothing if one of the others is given up. -/
def depth? : Nat → List SignalStep → Option Nat
  | n, [] => some n
  | n, hold :: rest => depth? (n + 1) rest
  | 0, letGo :: _ => none
  | n + 1, letGo :: rest => depth? n rest
  | n, raise _ :: rest => depth? n rest
  | n, install _ _ :: rest => depth? n rest

/-- Signals that are raised change nothing about which guards are held. -/
theorem depth?_raise_append (n : Nat) (cs : List ControlSignal) (rest : List SignalStep) :
    depth? n (cs.map raise ++ rest) = depth? n rest := by
  induction cs with
  | nil => rfl
  | cons c cs ih => exact ih

/-- To install a set of handlers takes no guard and gives none up. -/
theorem depth?_installs_append (n : Nat) (set : HandlerSet) (rest : List SignalStep) :
    depth? n (installs set ++ rest) = depth? n rest :=
  rfl

theorem filter_isInstall_raise (cs : List ControlSignal) :
    (cs.map raise).filter isInstall = [] := by
  simp [isInstall]

theorem filter_isInstall_installs (set : HandlerSet) :
    (installs set).filter isInstall = installs set :=
  rfl

/-- What a step does to a process whose guards have found these masks, the youngest guard first: the
signal is raised, the disposition installed or everything blocked, and when a guard is given up the
mask is put back that it has found. -/
def effect (found : List (PerSignal Bool)) (s : SignalState) : SignalStep → Fate
  | raise c => s.raise c
  | install c d => .alive (s.installOne c d)
  | hold => .alive s.block
  | letGo =>
    match found with
    | [] => .alive s
    | mask :: _ => s.setBlocked mask

/-- What a step changes while the control signals are blocked. -/
def underGuard (s : SignalState) : SignalStep → SignalState
  | raise c => { s with pending := s.pending.set c true }
  | install c d => s.installOne c d
  | hold | letGo => s

end SignalStep

/-- A process whose control signals are watched: what has become of it, the masks that its guards
have found, that of the youngest guard first, and the signals that were delivered, with the
dispositions they met. -/
structure Watch where
  fate : Fate
  guards : List (PerSignal Bool) := []
  delivered : List (ControlSignal × Disposition) := []

namespace Watch

/-- Something happens to the process, if it lives, and delivers some signals. -/
def next (w : Watch) (change : SignalState → Fate)
    (news : SignalState → List (ControlSignal × Disposition)) : Watch :=
  match w.fate with
  | .alive s => { w with fate := change s, delivered := w.delivered ++ news s }
  | .killed _ _ => w

/-- A signal is raised. -/
def raise (w : Watch) (c : ControlSignal) : Watch :=
  w.next (·.raise c) fun s => if s.blocked.get c then [] else [(c, s.action.get c)]

/-- A signal is delivered if it waits and is not blocked. -/
def release (w : Watch) (c : ControlSignal) : Watch :=
  w.next (·.release c) fun s =>
    if s.pending.get c && !s.blocked.get c then [(c, s.action.get c)] else []

/-- The mask is replaced, and what waits and is not blocked any more is delivered. -/
def setBlocked (w : Watch) (mask : PerSignal Bool) : Watch :=
  (((w.next (fun s => .alive { s with blocked := mask }) fun _ => []).release .interrupt).release
    .terminate).release .stop

/-- The process after a step. -/
def step (w : Watch) : SignalStep → Watch
  | .raise c => w.raise c
  | .install c d => w.next (fun s => .alive (s.installOne c d)) fun _ => []
  | .hold =>
    match w.fate with
    | .alive s => { w with fate := .alive s.block, guards := s.blocked :: w.guards }
    | .killed _ _ => w
  | .letGo =>
    match w.guards with
    | [] => w
    | mask :: guards => { w.setBlocked mask with guards }

/-- The process after a series of steps. -/
def run (w : Watch) (steps : List SignalStep) : Watch :=
  steps.foldl step w

/-- Giving up the youngest guard puts back the mask that it has found, and leaves the guards from
before. -/
theorem step_letGo (fate : Fate) (mask : PerSignal Bool) (guards : List (PerSignal Bool))
    (log : List (ControlSignal × Disposition)) :
    step ⟨fate, mask :: guards, log⟩ .letGo =
      { setBlocked ⟨fate, mask :: guards, log⟩ mask with guards } :=
  rfl

theorem run_cons (w : Watch) (x : SignalStep) (steps : List SignalStep) :
    w.run (x :: steps) = (w.step x).run steps :=
  rfl

theorem run_append (w : Watch) (steps more : List SignalStep) :
    w.run (steps ++ more) = (w.run steps).run more :=
  List.foldl_append

/-! ## Nothing is disturbed -/

/-- What is noted of a process does not change what becomes of it. -/
theorem fate_next (w : Watch) (change : SignalState → Fate)
    (news : SignalState → List (ControlSignal × Disposition)) :
    (w.next change news).fate = w.fate.andThen change := by
  unfold next
  cases hfate : w.fate with
  | alive s => rfl
  | killed c announced => exact hfate

/-- A mask that is put back does to a process that is watched what it does to it by itself: the
signals are released one by one, until one of them kills. -/
theorem fate_setBlocked (w : Watch) (mask : PerSignal Bool) :
    (w.setBlocked mask).fate = w.fate.andThen (·.setBlocked mask) := by
  simp only [setBlocked, release, fate_next]
  cases w.fate with
  | killed c announced => rfl
  | alive s =>
      simp only [Fate.andThen, SignalState.setBlocked, SignalState.releaseAll]
      cases SignalState.release { s with blocked := mask } .interrupt with
      | killed c announced => rfl
      | alive s' => rfl

/-- **A process that is watched does what it would do by itself.**  Whatever the step is, what
becomes of the process is what the operations on its signals make of it. -/
theorem fate_step (w : Watch) (x : SignalStep) :
    (w.step x).fate = w.fate.andThen fun s => x.effect w.guards s := by
  cases x with
  | raise c => exact fate_next w _ _
  | install c d => exact fate_next w _ _
  | hold =>
      rw [step]
      cases hfate : w.fate with
      | alive s => rfl
      | killed c announced => exact hfate
  | letGo =>
      rw [step]
      cases hguards : w.guards with
      | nil =>
          cases w.fate with
          | alive s => rfl
          | killed c announced => rfl
      | cons mask guards => exact fate_setBlocked w mask

/-! ## While a guard is held -/

/-- To put back a mask that blocks everything delivers nothing, and changes nothing where everything
is blocked already. -/
theorem setBlocked_const (s : SignalState) (hheld : s.blocked = .const true)
    (guards : List (PerSignal Bool)) (log : List (ControlSignal × Disposition)) :
    setBlocked ⟨.alive s, guards, log⟩ (.const true) = ⟨.alive s, guards, log⟩ := by
  obtain ⟨blocked, pending, action, caught, stops, stopsTaken⟩ := s
  obtain rfl : blocked = .const true := hheld
  simp [setBlocked, release, next, SignalState.release]

/-- **While a guard is held nothing is delivered**, whatever is raised and installed, and however
many more guards are taken and given up: the mask stays, and so do the guards from before. -/
theorem run_held {n m : Nat} {steps : List SignalStep} (hdepth : SignalStep.depth? n steps = some m)
    {s : SignalState} (hheld : s.blocked = .const true) (guards : List (PerSignal Bool))
    (log : List (ControlSignal × Disposition)) :
    run ⟨.alive s, List.replicate n (.const true) ++ guards, log⟩ steps =
      ⟨.alive (steps.foldl SignalStep.underGuard s), List.replicate m (.const true) ++ guards,
        log⟩ := by
  induction steps generalizing n s with
  | nil =>
      obtain rfl : n = m := Option.some.inj hdepth
      rfl
  | cons x rest ih =>
      rw [run_cons, List.foldl_cons]
      cases x with
      | raise c =>
          have hblocked : s.blocked.get c = true := by rw [hheld, PerSignal.get_const]
          have hstep : step ⟨.alive s, List.replicate n (.const true) ++ guards, log⟩ (.raise c) =
              ⟨.alive (SignalStep.underGuard s (.raise c)),
                List.replicate n (.const true) ++ guards, log⟩ := by
            simp [step, raise, next, SignalState.raise, hblocked, SignalStep.underGuard]
          rw [hstep]
          exact ih hdepth hheld
      | install c d =>
          have hstep : step ⟨.alive s, List.replicate n (.const true) ++ guards, log⟩
              (.install c d) = ⟨.alive (SignalStep.underGuard s (.install c d)),
                List.replicate n (.const true) ++ guards, log⟩ := by
            simp [step, next, SignalStep.underGuard]
          rw [hstep]
          exact ih hdepth hheld
      | hold =>
          have hblock : s.block = s := by
            rw [SignalState.block, ← hheld]
          have hstep : step ⟨.alive s, List.replicate n (.const true) ++ guards, log⟩ .hold =
              ⟨.alive s, List.replicate (n + 1) (.const true) ++ guards, log⟩ := by
            simp [step, hblock, hheld, List.replicate_succ]
          rw [hstep]
          exact ih hdepth hheld
      | letGo =>
          cases n with
          | zero => exact absurd hdepth (Option.some_ne_none m).symm
          | succ n =>
              have hstep : step ⟨.alive s, List.replicate (n + 1) (.const true) ++ guards, log⟩
                  .letGo = ⟨.alive s, List.replicate n (.const true) ++ guards, log⟩ := by
                rw [List.replicate_succ, List.cons_append, step_letGo, setBlocked_const s hheld]
              rw [hstep]
              exact ih hdepth hheld

end Watch

/-! ## What waits and what is installed -/

namespace SignalStep

variable (s : SignalState) (steps : List SignalStep)

/-- Under a guard, signals that are raised one after the other come to wait. -/
theorem raiseAll_eq {s : SignalState} (hheld : s.blocked = .const true)
    (cs : List ControlSignal) :
    s.raiseAll cs = .alive ((cs.map raise).foldl underGuard s) := by
  induction cs generalizing s with
  | nil => rfl
  | cons c cs ih =>
      have hblocked : s.blocked.get c = true := by rw [hheld, PerSignal.get_const]
      have hfirst : s.raise c = .alive (underGuard s (.raise c)) := if_pos hblocked
      rw [SignalState.raiseAll, hfirst]
      exact ih hheld

/-- A set of handlers is installed one by one, which under a guard are the steps of an
installation. -/
theorem install_eq (set : HandlerSet) : s.install set = (installs set).foldl underGuard s :=
  rfl

/-- Nothing but dispositions and waiting signals changes under a guard. -/
theorem underGuard_frame (x : SignalStep) :
    (underGuard s x).blocked = s.blocked ∧ (underGuard s x).caught = s.caught ∧
      (underGuard s x).stops = s.stops ∧ (underGuard s x).stopsTaken = s.stopsTaken := by
  cases x with
  | raise c => exact ⟨rfl, rfl, rfl, rfl⟩
  | hold => exact ⟨rfl, rfl, rfl, rfl⟩
  | install c d => exact ⟨rfl, rfl, rfl, rfl⟩
  | letGo => exact ⟨rfl, rfl, rfl, rfl⟩

/-- Under a guard nothing changes but what waits and what is installed, however much happens. -/
theorem foldl_underGuard_frame :
    (steps.foldl underGuard s).blocked = s.blocked ∧
      (steps.foldl underGuard s).caught = s.caught ∧
      (steps.foldl underGuard s).stops = s.stops ∧
      (steps.foldl underGuard s).stopsTaken = s.stopsTaken := by
  induction steps generalizing s with
  | nil => exact ⟨rfl, rfl, rfl, rfl⟩
  | cons x rest ih =>
      obtain ⟨hblocked, hcaught, hstops, htaken⟩ := underGuard_frame s x
      have hrest := ih (underGuard s x)
      rw [hblocked, hcaught, hstops, htaken] at hrest
      exact hrest

/-- The dispositions in force are those that were installed last. -/
theorem foldl_underGuard_action :
    (steps.foldl underGuard s).action = ((steps.filter isInstall).foldl underGuard s).action := by
  have hsame : ∀ {s s' : SignalState}, s.action = s'.action →
      (steps.foldl underGuard s).action =
        ((steps.filter isInstall).foldl underGuard s').action := by
    induction steps with
    | nil => exact fun h => h
    | cons x rest ih =>
        intro s s' h
        cases x with
        | raise c => exact ih h
        | hold => exact ih h
        | letGo => exact ih h
        | install c d => exact ih (congrArg (·.set c d) h)
  exact hsame rfl

/-- Whenever a disposition that discards the signal is installed, the signal is raised again. -/
def Survives (c : ControlSignal) (steps : List SignalStep) : Prop :=
  ∀ before after, steps = before ++ .install c .ignore :: after → .raise c ∈ after

/-- One more step raises the signal again, or it does not discard it. -/
theorem survives_append_singleton {c : ControlSignal} {steps : List SignalStep} {x : SignalStep} :
    Survives c (steps ++ [x]) ↔
      x = .raise c ∨ x ≠ .install c .ignore ∧ Survives c steps := by
  constructor
  · intro h
    by_cases hraise : x = .raise c
    · exact .inl hraise
    · refine .inr ⟨?_, fun before after hsplit => ?_⟩
      · rintro rfl
        exact absurd (h steps [] rfl) List.not_mem_nil
      · have hmem : .raise c ∈ after ++ [x] := h before (after ++ [x]) (by simp [hsplit])
        rcases List.mem_append.mp hmem with hmem | hmem
        · exact hmem
        · exact absurd (List.mem_singleton.mp hmem).symm hraise
  · intro h before after hsplit
    rcases List.eq_nil_or_concat after with rfl | ⟨after', y, rfl⟩
    · obtain ⟨-, hlast⟩ := List.append_inj' hsplit rfl
      obtain rfl := List.singleton_inj.mp hlast
      rcases h with h | h
      · exact absurd h (by simp)
      · exact absurd rfl h.1
    · rw [List.concat_eq_append] at hsplit ⊢
      rw [← List.cons_append, ← List.append_assoc] at hsplit
      obtain ⟨hfront, hlast⟩ := List.append_inj' hsplit rfl
      obtain rfl := List.singleton_inj.mp hlast
      rcases h with rfl | h
      · simp
      · exact List.mem_append_left _ (h.2 before after' hfront)

/-- A signal that was raised under a guard waits, unless a disposition that discards it was
installed and it was not raised again since. -/
theorem pending_foldl_underGuard {c : ControlSignal} {steps : List SignalStep}
    (hraised : .raise c ∈ steps) :
    (steps.foldl underGuard s).pending.get c = true ↔ Survives c steps := by
  induction steps using List.reverseRec with
  | nil => exact absurd hraised List.not_mem_nil
  | append_singleton steps x ih =>
      rw [survives_append_singleton, List.foldl_append, List.foldl_cons, List.foldl_nil]
      by_cases hx : x = .raise c
      · obtain rfl := hx
        simp [underGuard]
      · have hbefore : .raise c ∈ steps := by
          rcases List.mem_append.mp hraised with hmem | hmem
          · exact hmem
          · exact absurd (List.mem_singleton.mp hmem).symm hx
        have hold := ih hbefore
        cases x with
        | raise c' =>
            have hne : c ≠ c' := fun h => hx (h ▸ rfl)
            simp [underGuard, PerSignal.get_set_of_ne _ _ hne, hold, Ne.symm hne]
        | hold => simp [underGuard, hold]
        | letGo => simp [underGuard, hold]
        | install c' d =>
            by_cases hd : d = .ignore
            · by_cases hc : c = c'
              · simp [underGuard, SignalState.installOne, hd, hc]
              · simp [underGuard, SignalState.installOne, hd, PerSignal.get_set_of_ne _ _ hc, hold,
                  Ne.symm hc]
            · simp [underGuard, SignalState.installOne, hd, hold]

end SignalStep

/-! ## When the last guard is given up -/

namespace SignalState

variable {s : SignalState}

/-- Does the signal wait without being blocked? -/
def isDue (s : SignalState) (c : ControlSignal) : Bool :=
  s.pending.get c && !s.blocked.get c

/-- Only a signal that is blocked still waits after it was to be released. -/
theorem set_pending_of_not_due {c : ControlSignal} (h : s.isDue c = false) :
    s.pending.set c (s.pending.get c && s.blocked.get c) = s.pending := by
  have hsame : (s.pending.get c && s.blocked.get c) = s.pending.get c := by
    unfold isDue at h
    cases hpending : s.pending.get c with
    | false => rfl
    | true =>
        rw [hpending] at h
        simpa using h
  rw [hsame]
  refine PerSignal.ext_get fun d => ?_
  by_cases hd : d = c
  · rw [hd, PerSignal.get_set]
  · exact PerSignal.get_set_of_ne _ _ hd

/-- A signal that the process handles and that does not kill is counted when it is released. -/
theorem release_of_handled {c : ControlSignal} (hhandler : s.action.get c = .handler)
    (hc : c ≠ .terminate) :
    s.release c = .alive { s with
      pending := s.pending.set c (s.pending.get c && s.blocked.get c)
      caught := s.caught || s.isDue c
      stops := s.stops + if c = .stop then (s.isDue c).toNat else 0 } := by
  cases hdue : s.isDue c with
  | false =>
      rw [set_pending_of_not_due hdue, release, ← isDue, hdue]
      simp
  | true =>
      have hwaits : s.pending.get c = true ∧ s.blocked.get c = false := by
        simpa [isDue] using hdue
      rw [release, ← isDue, hdue, if_pos rfl, deliver, hhandler, hwaits.1, hwaits.2]
      cases c with
      | interrupt => simp [handle]
      | terminate => exact absurd rfl hc
      | stop => simp [handle]

/-- The terminate signal ends a process that handles it, with an announcement, if it is due when it
is released. -/
theorem release_terminate_of_handled (hhandler : s.action.get .terminate = .handler) :
    s.release .terminate =
      if s.isDue .terminate then .killed .terminate true
      else .alive { s with
        pending := s.pending.set .terminate
          (s.pending.get .terminate && s.blocked.get .terminate) } := by
  cases hdue : s.isDue .terminate with
  | false =>
      rw [set_pending_of_not_due hdue, release, ← isDue, hdue]
      rfl
  | true =>
      rw [release, ← isDue, hdue, if_pos rfl, if_pos rfl, deliver, hhandler]
      rfl

end SignalState

namespace Watch

/-- The signals that a process hears which handles them: those that wait without being blocked, the
lowest first, but nothing after the terminate signal. -/
def heard (s : SignalState) : List ControlSignal :=
  ControlSignal.all.filter fun c =>
    s.isDue c && (c.number ≤ ControlSignal.terminate.number || !s.isDue .terminate)

/-- What a process hears is decided by the signals that are due. -/
theorem heard_eq (s : SignalState) : heard s =
    (if s.isDue .interrupt then [.interrupt] else []) ++
      if s.isDue .terminate then [.terminate] else if s.isDue .stop then [.stop] else [] := by
  have hlow : ControlSignal.interrupt.number ≤ ControlSignal.terminate.number := by decide
  have hhigh : ¬ ControlSignal.stop.number ≤ ControlSignal.terminate.number := by decide
  cases hint : s.isDue .interrupt <;> cases hterm : s.isDue .terminate <;>
    cases hstop : s.isDue .stop <;>
      simp [heard, ControlSignal.all, hint, hterm, hstop, hlow, hhigh]

/-- When a signal is released that is due, it is noted down with the disposition that it meets. -/
theorem release_alive (s : SignalState) (guards : List (PerSignal Bool))
    (log : List (ControlSignal × Disposition)) (c : ControlSignal) :
    release ⟨.alive s, guards, log⟩ c =
      ⟨s.release c, guards, log ++ if s.isDue c then [(c, s.action.get c)] else []⟩ :=
  rfl

/-- A process that handles its control signals, and whose mask is replaced, hears the signals that
wait and are not blocked.  It does not live on if the terminate signal is one of them. -/
theorem setBlocked_of_handled {s : SignalState} (hhandled : s.action = .const .handler)
    (mask : PerSignal Bool) (guards : List (PerSignal Bool))
    (log : List (ControlSignal × Disposition)) :
    let restored := { s with blocked := mask }
    setBlocked ⟨.alive s, guards, log⟩ mask =
      { fate :=
          if restored.isDue .terminate then .killed .terminate true
          else .alive { restored with
            pending := .ofFn fun c => s.pending.get c && mask.get c
            caught := s.caught || restored.isDue .interrupt || restored.isDue .stop
            stops := s.stops + (restored.isDue .stop).toNat }
        guards
        delivered := log ++ (heard restored).map fun c => (c, .handler) } := by
  intro restored
  have hhandler : ∀ c, restored.action.get c = .handler := by
    intro c
    have hall : restored.action = .const .handler := hhandled
    rw [hall, PerSignal.get_const]
  -- The interrupt comes first and never kills.
  let mid : SignalState := { restored with
    pending := s.pending.set .interrupt (s.pending.get .interrupt && mask.get .interrupt)
    caught := s.caught || restored.isDue .interrupt }
  have hfirst : restored.release .interrupt = .alive mid :=
    SignalState.release_of_handled (hhandler .interrupt) (by decide)
  have hsecond := SignalState.release_terminate_of_handled (s := mid) (hhandler .terminate)
  have hdue : mid.isDue .terminate = restored.isDue .terminate := rfl
  have hstart : setBlocked ⟨.alive s, guards, log⟩ mask =
      ((release ⟨.alive mid, guards, log ++
          if restored.isDue .interrupt then [(.interrupt, .handler)] else []⟩ .terminate).release
        .stop) := by
    have hunfold : setBlocked ⟨.alive s, guards, log⟩ mask =
        ((release ⟨.alive restored, guards, log ++ []⟩ .interrupt).release .terminate).release
          .stop := rfl
    rw [hunfold, release_alive, hfirst, hhandler, List.append_nil]
  rw [hstart, release_alive, hsecond, hdue, heard_eq]
  cases hterm : restored.isDue .terminate with
  | true =>
      have hlast : mid.action.get .terminate = .handler := hhandler .terminate
      rw [hlast]
      cases hint : restored.isDue .interrupt <;> simp [release, next]
  | false =>
      let late : SignalState := { mid with
        pending := mid.pending.set .terminate
          (mid.pending.get .terminate && mid.blocked.get .terminate) }
      have hthird : late.release .stop = .alive { late with
          pending := .ofFn fun c => s.pending.get c && mask.get c
          caught := late.caught || restored.isDue .stop
          stops := late.stops + (restored.isDue .stop).toNat } :=
        SignalState.release_of_handled (hhandler .stop) (by decide)
      have hlast : late.action.get .stop = .handler := hhandler .stop
      have hdueLast : late.isDue .stop = restored.isDue .stop := rfl
      simp only [Bool.false_eq_true, if_false, List.append_nil]
      rw [release_alive, hthird, hlast, hdueLast]
      cases hint : restored.isDue .interrupt <;> cases hstop : restored.isDue .stop <;>
        simp [late, mid, restored, hint]

end Watch

end Conch
