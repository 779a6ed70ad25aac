import Conch.Script.Builtin.Basic

/-!
# Builtin commands about children

A script can name the children that it has created together by a number, or as the last ones.
It can list them, wait for them, and send them signals; but it does not control them, so it cannot
bring them to the foreground.
-/

namespace Conch.Script.Action

open Running

/-! ## Groups -/

/-- The group that a word names. -/
def groupNamed (word : Text) : Running Group := do
  let groups := (← get).groups
  let found (group? : Option Group) (message : Text) : Running Group :=
    match group? with
    | some group => pure group
    | none => fail message
  match word with
  | ['%'] | ['%', '%'] | ['%', '+'] => found groups.head? "No current job".toList
  | ['%', '-'] => found groups[1]? "No previous job".toList
  | '%' :: name =>
    found ((Text.natural? name).bind fun n => groups.find? fun group => group.number == n)
      ("No such job: ".toList ++ word)
  | _ => fail ("No such job: ".toList ++ word)

/-- The commands that would bring children to the foreground or the background. -/
def controlJob : Action := fun arguments => do
  let (_, words) ← readFlags [] arguments
  let refuse (name : Text) : Running Reply :=
    fail ("job ".toList ++ name ++ " not created under job control".toList)
  match words with
  | [] =>
    let _ ← groupNamed ['%']
    refuse "(null)".toList
  | word :: _ =>
    let _ ← groupNamed word
    refuse word

/-- How the children of a group are doing. -/
def stateText (group : Group) : Text :=
  match group.hasEnded, group.members.getLast? with
  | true, some (_, some (.exited code)) =>
    let status := code.toNat % 256
    if status = 0 then "Done".toList else "Done(".toList ++ Text.decimal status ++ [')']
  | true, some (_, some (.killed signal)) => SignalName.describe signal.toNat
  | _, _ => "Running".toList

/-- The width of the column with the states of groups. -/
def stateWidth : Nat := 33

/-- Text with blanks after it, at least one, up to the width of the column. -/
def inColumn (text : Text) : Text :=
  text ++ List.replicate (max 1 (stateWidth - text.length)) ' '

/-- A line about a group.  `mark` tells the last group and the one before it from others. -/
def groupLine (withIds : Bool) (mark : Char) (group : Group) : Text :=
  let ids := group.members.map fun member => member.1.text.toList ++ [' ']
  let head := '[' :: Text.decimal group.number ++ [']', ' ', mark, ' ']
  if withIds then
    let others := (ids.drop 1).flatMap fun id =>
      " |\n".toList ++ inColumn (List.replicate head.length ' ' ++ id)
    inColumn (head ++ ids.headD [] ++ stateText group) ++ others ++ ['\n']
  else
    inColumn (head ++ stateText group) ++ (ids.drop 1).flatMap (fun _ => " | ".toList) ++ ['\n']

/-- Tell about a group; it is forgotten if it has ended. -/
def showGroup (options : List Char) (group : Group) : Running Text := do
  match options.getLast? with
  | some 'p' => pure ((group.members.take 1).flatMap fun member => member.1.text.toList ++ ['\n'])
  | option =>
    let groups := (← get).groups
    let isAt (k : Nat) : Bool := groups[k]?.any fun other => other.number == group.number
    let mark := if isAt 0 then '+' else if isAt 1 then '-' else ' '
    pure (groupLine (option = some 'l') mark group)

/-- The command `jobs`. -/
def listGroups : Action := fun arguments => do
  let (options, words) ← readFlags ['l', 'p'] arguments
  let show_ (group : Group) : Running Text := do
    let text ← showGroup options group
    if group.hasEnded && options.getLast? != some 'p' then forgetGroup group.number
    pure text
  if words = [] then
    collectEnded Task.patience
    pure (.ofText (← (← get).groups.mapM show_).flatten)
  else pure (.ofText (← words.mapM fun word => do show_ (← groupNamed word)).flatten)

/-! ## Signals -/

/-- The usage of the command `kill`. -/
def killUsage : Text :=
  ("Usage: kill [-s sigspec | -signum | -sigspec] [pid | job]... or\n" ++
    "kill -l [exitstatus]").toList

/-- Send a signal to processes; a group is taken for a process group with the number of its first
process. -/
def sendTo (signal : Nat) : List Text → Running Nat
  | [] => pure 0
  | target :: rest => do
    let pid : Int ← match target with
      | '-' :: digits => do pure (-(← number digits : Int))
      | '%' :: name => do
        let group ← groupNamed ('%' :: name)
        pure (-((group.members.head?.map fun member => member.1.raw.toInt).getD 0))
      | digits => do pure (← number digits : Int)
    let failure : Option Errno ← ask (.kill pid signal)
    if let some errno := failure then report (errno.message.toList ++ ['\n'])
    let status ← sendTo signal rest
    pure (if failure.isSome then 1 else status)

/-- Tell the names of signals. -/
def listSignals (words : List Text) : Running Reply := do
  match words with
  | [] =>
    let names := (List.range 64).map fun k => SignalName.name (k + 1) ++ ['\n']
    pure (.ofText ("0\n".toList ++ names.flatten))
  | word :: _ =>
    let n ← number word
    let signal := if n > 128 then n - 128 else n
    if 0 < signal && signal ≤ 64 then pure (.ofText (SignalName.name signal ++ ['\n']))
    else fail ("invalid signal number or exit status: ".toList ++ word)

/-- The signal that the first argument names after a dash. -/
def leadingSignal? : List Text → Option Nat
  | ('-' :: name) :: _ => SignalName.number? 1 name
  | _ => none

/-- The command `kill`. -/
def sendSignals : Action := fun arguments => do
  let (lists, signal, targets) ← match leadingSignal? arguments with
    | some signal => pure (false, some signal, arguments.drop 1)
    | none => do
      let (options, targets) ← readOptions [('l', false), ('s', true)] arguments
      let signal ← match (options.filter fun option => option.1 == 's').getLast? with
        | none => pure none
        | some (_, name) =>
          match SignalName.number? 1 name with
          | some signal => pure (some signal)
          | none => fail ("invalid signal number or name: ".toList ++ name)
      pure (options.any fun option => option.1 == 'l', signal, targets)
  if lists then
    if signal.isSome then fail killUsage
    listSignals targets
  else if targets = [] then fail killUsage
  else pure (.ofStatus (← sendTo (signal.getD ControlSignal.terminate.number.toNat) targets))

/-! ## Children -/

/-- The status of a script whose wait was broken off. -/
def interruptedStatus (signal : Nat) : Nat :=
  128 + signal

/-- Note that groups have been waited for. -/
def noteWaited (which : Group → Bool) : Running Unit :=
  modify fun r => { r with
    groups := r.groups.map fun group =>
      if which group then { group with isWaited := true } else group }

/-- Wait for each of some children; the status is that of the last. -/
def waitForEach (status : Nat) : List Text → Running Nat
  | [] => pure status
  | word :: rest => do
    let group? : Option Group ←
      if word.head? = some '%' then some <$> groupNamed word
      else do
        let n ← number word
        let isLast (group : Group) : Bool :=
          (group.members.getLast?).any fun member => member.1 == ⟨Int32.ofNat n⟩
        pure ((← get).groups.find? isLast)
    match group?.bind fun group => group.members.getLast? with
    | none => waitForEach 127 rest
    | some (pid, _) =>
      match ← waitUntil (hasEnded pid) (some pid) .untilNoted Task.patience with
      | some signal => pure (interruptedStatus signal)
      | none =>
        noteWaited fun group => isMember pid group
        waitForEach (((← Running.group? pid).map Group.status).getD 0) rest

/-- The command `wait`. -/
def waitForChildren : Action := fun arguments => do
  let (_, words) ← readFlags [] arguments
  if words != [] then pure (.ofStatus (← waitForEach 127 words))
  else
    let allEnded : Running Bool := do
      pure ((← get).groups.all Group.hasEnded)
    let noted ← waitUntil allEnded none .untilNoted Task.patience
    noteWaited Group.hasEnded
    match noted with
    | some signal => pure (.ofStatus (interruptedStatus signal))
    | none => pure {}

end Conch.Script.Action
