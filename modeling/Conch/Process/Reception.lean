import Conch.Signal

/-!
# How a process takes signals

Besides the control signals of the shell there are many others, and any program may say what
they do to it: what they do by default, nothing, or that they are noted down for the program to
look at.  A signal that is held back, because it is blocked or because the process is stopped,
waits; it waits only once, and those that wait are delivered the lowest number first.

Two signals cannot be provided for: one kills and one stops the process, whatever it says.
-/

namespace Conch

/-- What a program has said that a signal is to do: what it does to any process, or nothing, or it
is noted down. -/
inductive SignalAction where
  | default
  | ignore
  | note
  deriving DecidableEq, Repr

/-- How a process takes signals: which ones do nothing, are noted down or are blocked, which wait
and which have been noted down, and whether the process is stopped. -/
structure Reception where
  ignored : List Nat := []
  heeded : List Nat := []
  blocked : List Nat := []
  pending : List Nat := []
  noted : List Nat := []
  stopped : Bool := false
  deriving DecidableEq, Repr

/-- What comes of a signal: the process lives on, or the signal kills it. -/
inductive Impact where
  | survived (reception : Reception)
  | fatal (signal : Nat)
  deriving DecidableEq, Repr

namespace Reception

/-- The signal that kills. -/
def kill : Nat := 9

/-- The signal that tells of a broken pipe. -/
def brokenPipe : Nat := 13

/-- The signal that tells of a child. -/
def child : Nat := 17

/-- The signal that lets a stopped process go on. -/
def resume : Nat := 18

/-- The signal that stops. -/
def stop : Nat := 19

/-- The signals that by default do nothing.  Those with which a terminal stops a process are among
them, because nobody could resume it. -/
def harmless : List Nat := [17, 18, 20, 21, 22, 23, 28]

/-- Deliver a signal. -/
def deliver (r : Reception) (signal : Nat) : Impact :=
  if r.ignored.contains signal then .survived r
  else if r.heeded.contains signal then
    .survived { r with noted := r.noted.filter (· != signal) ++ [signal] }
  else if harmless.contains signal then .survived r
  else .fatal signal

/-- Deliver signals, one after the other. -/
def deliverAll (r : Reception) : List Nat → Impact
  | [] => .survived r
  | signal :: rest =>
    match r.deliver signal with
    | .survived r => r.deliverAll rest
    | .fatal signal => .fatal signal

/-- Deliver the signals that wait and are no longer held back. -/
def releaseAll (r : Reception) : Impact :=
  let free (signal : Nat) : Bool := !r.blocked.contains signal
  { r with pending := r.pending.filter fun signal => !free signal }.deliverAll
    (r.pending.filter free).mergeSort

/-- Send a signal. -/
def send (r : Reception) (signal : Nat) : Impact :=
  if signal = 0 then .survived r
  else if signal = kill then .fatal kill
  else if signal = stop then .survived { r with stopped := true }
  else if r.ignored.contains signal && !r.blocked.contains signal && signal != resume then
    .survived r
  else
    let r := { r with pending := r.pending.filter (· != signal) ++ [signal] }
    if signal = resume then { r with stopped := false }.releaseAll
    else if r.stopped then .survived r
    else r.releaseAll

/-- Say what a signal is to do. -/
def setAction (r : Reception) (signal : Nat) (action : SignalAction) : Reception :=
  let without (signals : List Nat) : List Nat := signals.filter (· != signal)
  { r with
    ignored := if action = .ignore then signal :: without r.ignored else without r.ignored
    heeded := if action = .note then signal :: without r.heeded else without r.heeded
    pending := if action = .ignore then without r.pending else r.pending }

/-- Deliver all signals that were blocked. -/
def unblock (r : Reception) : Impact :=
  { r with blocked := [] }.releaseAll

/-- How a process takes signals that has just been created by another one: none waits. -/
def inherited (r : Reception) : Reception :=
  { r with pending := [], noted := [], stopped := false }

/-- How a process takes signals that has become another program: none is noted down. -/
def forProgram (r : Reception) : Reception :=
  { r with heeded := [], noted := [] }

/-- How a process takes signals that was created by the shell: like the shell, it does not mind a
broken pipe. -/
def ofControl (s : SignalState) : Reception :=
  let numbers (p : ControlSignal → Bool) : List Nat :=
    (ControlSignal.all.filter p).map fun signal => signal.number.toNat
  { ignored := brokenPipe :: numbers fun signal => s.action.get signal == .ignore
    blocked := numbers s.blocked.get }

end Reception

end Conch
