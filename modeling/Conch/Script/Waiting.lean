import Conch.Script.Runner
import Conch.Script.SignalName

/-!
# Children of scripts

The children that a script creates for one clause make up a group, which has a number and is
waited for as a whole.  Whatever child ends while the script waits is noted down in its group.
The script reports the death of a child by a signal if it waits for the group; about an interrupt
and a broken pipe it says nothing.
-/

namespace Conch.Script.Running

/-- The signals about which nothing is said. -/
def silentSignals : List Nat := [2, 13]

/-- Say how a child has died. -/
def reportDeath (cause : Completion) : Running Unit :=
  match cause with
  | .exited _ => pure ()
  | .killed signal =>
    if silentSignals.contains signal.toNat then pure ()
    else write Task.errors (SignalName.describe signal.toNat ++ ['\n'])

/-- Is the process a member of the group? -/
def isMember (pid : ProcessId) (group : Group) : Bool :=
  group.members.any fun member => member.1 == pid

/-- Note that a child has ended; it is reported if it is a member of the group with the process
`leader`. -/
def noteEnd (leader : Option ProcessId) (pid : ProcessId) (cause : Completion) :
    Running Unit := do
  let r ← get
  let isWaitedFor := match leader, r.groups.find? (isMember pid) with
    | some leader, some group => isMember leader group
    | _, _ => false
  set { r with groups := r.groups.map (Group.noteEnd pid cause) }
  if isWaitedFor then reportDeath cause

/-- The group of a process. -/
def group? (pid : ProcessId) : Running (Option Group) := do
  pure ((← get).groups.find? (isMember pid))

/-- Has the group of a process ended? -/
def hasEnded (pid : ProcessId) : Running Bool := do
  pure ((← group? pid).all Group.hasEnded)

/-- Note down all children that have ended by now. -/
def collectEnded : (fuel : Nat) → Running Unit
  | 0 => pure ()
  | fuel + 1 => do
    match ← task (Task.ask (.wait none .briefly)) with
    | .ended pid cause =>
      noteEnd none pid cause
      collectEnded fuel
    | _ => pure ()

/-- Wait until a goal is reached or no child is left; the answer is the signal that was noted down
before, if there was one. -/
def waitUntil (goal : Running Bool) (leader : Option ProcessId) (mode : WaitMode) :
    (fuel : Nat) → Running (Option Nat)
  | 0 => pure none
  | fuel + 1 => do
    if ← goal then pure none
    else match ← task (Task.ask (.wait none mode)) with
      | .ended pid cause =>
        noteEnd leader pid cause
        waitUntil goal leader mode fuel
      | .none | .running => pure none
      | .interrupted signal => pure (some signal)

/-- The signal of an interrupt. -/
def interrupt : Nat := 2

/-- Does an interrupt have to wait while the script waits?  It does unless the script is read from
standard input, has an action for it or may have none. -/
def holdsInterrupt : Running Bool := do
  let r ← get
  pure (!r.options.contains 's' && !r.fixed.contains interrupt &&
    (r.traps.lookup interrupt).isNone)

/-- Forget a group. -/
def forgetGroup (number : Nat) : Running Unit :=
  modify fun r => { r with groups := r.groups.filter fun group => group.number != number }

/-- Wait for the group of a process, and let its status be the result; the group is forgotten.  An
interrupt is only noted down meanwhile. -/
def waitFor (pid : ProcessId) : Running Nat := do
  let holds ← holdsInterrupt
  if holds then ask (.setAction interrupt .note)
  let _ ← waitUntil (hasEnded pid) (some pid) .steadily Task.patience
  collectEnded Task.patience
  if holds then ask (.setAction interrupt .default)
  match ← group? pid with
  | none => pure 0
  | some group =>
    forgetGroup group.number
    pure group.status

/-- The number of the next group: the first that no group has, unless it has ended and has been
waited for. -/
def nextNumber (groups : List Group) : Nat :=
  let isFree (k : Nat) : Bool :=
    groups.all fun group => group.number != k || (group.hasEnded && group.isWaited)
  1 + ((List.range groups.length).find? fun k => isFree (k + 1)).getD groups.length

/-- Note that children have been created together; a group that had their number is forgotten. -/
def addGroup (pids : List ProcessId) : Running Unit := do
  let number := nextNumber (← get).groups
  forgetGroup number
  let group : Group := { number, members := pids.map fun pid => (pid, none) }
  modify fun r => { r with groups := group :: r.groups }

/-- Who runs a script in a child: it has no children yet, and no action on a signal but to ignore
it. -/
def forked (r : Runner) : Runner :=
  { r with
    groups := []
    traps := r.traps.filter fun entry => entry.2 = []
    keptStatus := none }

/-- The signals on which something is done. -/
def trappedSignals (r : Runner) : List Nat :=
  (r.traps.filter fun entry => entry.1 != 0 && entry.2 != []).map Prod.fst

/-- Does a script do anything on signals, or at its end? -/
def hasTraps : Running Bool := do
  pure ((← get).traps.any fun entry => entry.2 != [])

/-- Let all signals do again what they do by default, except those that are ignored. -/
def resetSignals (r : Runner) : Running Unit :=
  (trappedSignals r).forM fun signal => do
    let _ ← task (Task.ask (.setAction signal .default))

/-- Do something in a child. -/
def forkChild (action : Running Unit) : Running ProcessId := do
  let r ← get
  let child := routine (do resetSignals r; action) (forked r)
  task (Task.fork child)

end Conch.Script.Running
