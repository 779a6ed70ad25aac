/-!
# Control signals

Three signals are given a meaning by the shell: interrupt, terminate and terminal stop.  A
process has, for each of them, a disposition, a bit that says whether it is blocked, and a
bit that says whether it is pending.  A blocked signal becomes pending, whatever its
disposition, and stays pending once however often it is raised; installing a disposition that
ignores a signal discards a pending one.

The handlers of the interactive set note that a signal was caught; the one of the stop signal
also counts it.  The handler of the terminate signal announces the end, resets the
disposition and sends the signal to the whole process group, so the process is killed by it
as soon as the handler returns.  Handlers run with all three signals blocked, so the pending
ones are delivered one after the other, the lowest number first.

Signals are held off by a guard: `block` gives the mask that was there before, and
`setBlocked` puts it back.
-/

namespace Conch

/-- The signals that the shell gives a meaning of its own: somebody wants the current activity to be
given up, the process to end, or the process to stop for a while. -/
inductive ControlSignal where
  | interrupt
  | terminate
  | stop
  deriving DecidableEq, Repr

namespace ControlSignal

/-- All control signals, the lowest number first. -/
def all : List ControlSignal :=
  [interrupt, terminate, stop]

/-- The number of the signal. -/
def number : ControlSignal → Int
  | interrupt => 2
  | terminate => 15
  | stop => 20

/-- The control signal with a given number. -/
def ofNumber? (n : Int) : Option ControlSignal :=
  all.find? fun signal => signal.number == n

end ControlSignal

/-- One value for each control signal. -/
structure PerSignal (α : Type) where
  interrupt : α
  terminate : α
  stop : α
  deriving DecidableEq, Repr

namespace PerSignal

variable {α : Type}

/-- The same value for each signal. -/
def const (a : α) : PerSignal α := ⟨a, a, a⟩

/-- The values of a function. -/
def ofFn (f : ControlSignal → α) : PerSignal α := ⟨f .interrupt, f .terminate, f .stop⟩

/-- The value of one signal. -/
def get (p : PerSignal α) : ControlSignal → α
  | .interrupt => p.interrupt
  | .terminate => p.terminate
  | .stop => p.stop

/-- Change the value of one signal. -/
def set (p : PerSignal α) (c : ControlSignal) (a : α) : PerSignal α :=
  match c with
  | .interrupt => { p with interrupt := a }
  | .terminate => { p with terminate := a }
  | .stop => { p with stop := a }

@[simp] theorem get_const (a : α) (c : ControlSignal) : (const a).get c = a := by
  cases c <;> rfl

@[simp] theorem get_ofFn (f : ControlSignal → α) (c : ControlSignal) : (ofFn f).get c = f c := by
  cases c <;> rfl

@[simp] theorem get_set (p : PerSignal α) (c : ControlSignal) (a : α) :
    (p.set c a).get c = a := by
  cases c <;> rfl

theorem get_set_of_ne (p : PerSignal α) {c d : ControlSignal} (a : α) (h : d ≠ c) :
    (p.set c a).get d = p.get d := by
  cases c <;> cases d <;> first | rfl | exact absurd rfl h

theorem ext_get {p q : PerSignal α} (h : ∀ c, p.get c = q.get c) : p = q := by
  cases p
  cases q
  have h1 := h .interrupt
  have h2 := h .terminate
  have h3 := h .stop
  simp only [get] at h1 h2 h3
  simp [h1, h2, h3]

end PerSignal

/-- What a signal does to a process: what it does to any process, or nothing, or the handler of the
shell runs. -/
inductive Disposition where
  | default
  | ignore
  | handler
  deriving DecidableEq, Repr

/-- The two ways in which the shell sets up the control signals: it reads or waits for a foreground
command, or the process is, or is about to become, a child. -/
inductive HandlerSet where
  | interactive
  | child (background : Bool)
  deriving DecidableEq, Repr

namespace HandlerSet

/-- The disposition of a control signal.  An interrupt is meant for the foreground, so it does not
reach a background child; and nobody could resume a child that was stopped. -/
def disposition : HandlerSet → ControlSignal → Disposition
  | interactive, _ => .handler
  | child true, .interrupt => .ignore
  | child _, .stop => .ignore
  | child _, _ => .default

/-- The disposition of the signal with any number. -/
def dispositionOfNumber (set : HandlerSet) (n : Int) : Disposition :=
  match ControlSignal.ofNumber? n with
  | some signal => set.disposition signal
  | none => .default

end HandlerSet

/-- The control signals of a process: which ones are blocked, which were raised and wait to be
delivered, and what they do.  The process also knows whether a handler has run since it was last
asked, how many stop signals have been handled in all, and how many of them had been when it was
last asked. -/
structure SignalState where
  blocked : PerSignal Bool := .const false
  pending : PerSignal Bool := .const false
  action : PerSignal Disposition := .const .default
  caught : Bool := false
  stops : Nat := 0
  stopsTaken : Nat := 0
  deriving DecidableEq, Repr

/-- Whether a process lives on, or a control signal has killed it, after announcing the end or
without. -/
inductive Fate where
  | alive (state : SignalState)
  | killed (signal : ControlSignal) (announced : Bool)
  deriving DecidableEq, Repr

/-- Go on with a process that lives. -/
def Fate.andThen (fate : Fate) (next : SignalState → Fate) : Fate :=
  match fate with
  | alive state => next state
  | killed signal announced => killed signal announced

namespace SignalState

/-- What the handler of a signal does. -/
def handle (s : SignalState) : ControlSignal → Fate
  | .interrupt => .alive { s with caught := true }
  | .terminate => .killed .terminate true
  | .stop => .alive { s with caught := true, stops := s.stops + 1 }

/-- What a signal does to a process that has not provided for it.  A stop has no effect on a process
that nobody could resume. -/
def suffer (s : SignalState) : ControlSignal → Fate
  | .stop => .alive s
  | c => .killed c false

/-- Deliver a signal. -/
def deliver (s : SignalState) (c : ControlSignal) : Fate :=
  match s.action.get c with
  | .default => s.suffer c
  | .ignore => .alive s
  | .handler => s.handle c

/-- Raise a signal. -/
def raise (s : SignalState) (c : ControlSignal) : Fate :=
  if s.blocked.get c then .alive { s with pending := s.pending.set c true }
  else s.deliver c

/-- Raise signals, one after the other. -/
def raiseAll (s : SignalState) : List ControlSignal → Fate
  | [] => .alive s
  | c :: rest => (s.raise c).andThen fun s => raiseAll s rest

/-- Deliver one signal if it is pending and not blocked. -/
def release (s : SignalState) (c : ControlSignal) : Fate :=
  if s.pending.get c && !s.blocked.get c then
    deliver { s with pending := s.pending.set c false } c
  else .alive s

/-- Deliver all signals that are pending and not blocked. -/
def releaseAll (s : SignalState) : Fate :=
  (s.release .interrupt).andThen fun s =>
    (s.release .terminate).andThen fun s => s.release .stop

/-- Replace the mask; signals that are no longer blocked are delivered. -/
def setBlocked (s : SignalState) (blocked : PerSignal Bool) : Fate :=
  releaseAll { s with blocked }

/-- Block all control signals.  The mask that was there before is what `setBlocked` needs to undo
this. -/
def block (s : SignalState) : SignalState :=
  { s with blocked := .const true }

/-- Install the disposition of one signal. -/
def installOne (s : SignalState) (c : ControlSignal) (d : Disposition) : SignalState :=
  { s with
    action := s.action.set c d
    pending := if d = .ignore then s.pending.set c false else s.pending }

/-- Install a set of handlers. -/
def install (s : SignalState) (set : HandlerSet) : SignalState :=
  ControlSignal.all.foldl (fun s c => s.installOne c (set.disposition c)) s

/-- Get ready to create a child: block the control signals and install the set of the child. -/
def enterChild (s : SignalState) (background : Bool) : SignalState :=
  s.block.install (.child background)

/-- Undo `enterChild` in the shell, given the mask that was there before. -/
def leaveChild (s : SignalState) (blocked : PerSignal Bool) : Fate :=
  (s.install .interactive).setBlocked blocked

/-- Finish `enterChild` in the child: the control signals are unblocked, because the mask would
outlive the start of the program. -/
def finishInChild (s : SignalState) : Fate :=
  s.setBlocked (.const false)

/-- Ask whether a signal was caught since this was last asked. -/
def takeCaught (s : SignalState) : Bool × SignalState :=
  (s.caught, { s with caught := false })

/-- Ask how many stop signals were handled since this was last asked. -/
def takeStops (s : SignalState) : Nat × SignalState :=
  (s.stops - s.stopsTaken, { s with stopsTaken := s.stops })

/-- What the handler of the terminate signal writes to standard output. -/
def terminationNotice : String :=
  "\ntinysh: terminated, signalling process group\n"

end SignalState

end Conch
