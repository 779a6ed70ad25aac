import Conch.Script.Builtin.Basic
import Conch.Tool.Entries

/-!
# Builtin commands about the system

These commands concern the process that runs the script: its working directory, its mask, and
the signals that it gets.

A script knows its working directory by the path by which it went there, in which symbolic
links may occur; to go up from there means to take away the last name of that path.
-/

namespace Conch.Script.Action

open Running

/-! ## The working directory -/

/-- A path that is being put together, the last character first, without the part of it that
stays. -/
def goUp : Text → Text
  | [] => []
  | _ :: before => before.dropWhile (· != Path.separator)

/-- A path without the names that stand for the same directory or the one above, each of which is
taken as a matter of text; `here` is where a relative path begins. -/
def logicalPath? (here path : Text) : Option Text :=
  let names := Path.properNames path
  let begun : Option (Text × Text) :=
    if Path.isAbsolute path then
      match path with
      | '/' :: '/' :: c :: _ => if c = '/' then some (['/'], []) else some (['/', '/'], [])
      | ['/', '/'] => some (['/', '/'], [])
      | _ => some (['/'], [])
    else if here = [] then none
    else
      let here := if Path.endsInSeparator here then here else here ++ [Path.separator]
      let root : Text := if here.take 2 = ['/', '/'] then ['/', '/'] else ['/']
      some (root, (here.drop root.length).reverse)
  begun.map fun (root, text) =>
    let step (text name : Text) : Text :=
      if name = ['.'] then text
      else if name = ['.', '.'] then goUp text
      else Path.separator :: name.reverse ++ text
    root ++ ((names.foldl step text).drop 1).reverse

/-- The path of the working directory as the system has it; a failure is reported. -/
def physicalPath : Running Text := do
  match Tool.workingPath? (← look) with
  | some path => pure path
  | none =>
    report ("getcwd() failed: ".toList ++ Errno.noEntry.message.toList)
    pure []

/-- Note by which path the working directory is known. -/
def setDirectory (path : Option Text) : Running Unit := do
  let path ← match path with
    | some path => pure path
    | none => physicalPath
  modify fun r => { r with directory := path }
  assignExported "PWD".toList path

/-- Go to a directory, and tell whether that was possible. -/
def enterDirectory (physical : Bool) (path : Text) : Running Bool := do
  let here := (← get).directory
  let logical := if physical then none else logicalPath? here path
  let view ← look
  match view.files.findDirectory view.directory (logical.getD path) with
  | .error _ => pure false
  | .ok directory =>
    ask (.enter directory)
    assignExported "OLDPWD".toList here
    setDirectory logical
    modify fun r => { r with
      located := r.located.map fun entry => (entry.1, { entry.2 with isStale := true }) }
    pure true

/-- Does the path say where it begins? -/
def isAnchored (path : Text) : Bool :=
  path.head? == some Path.separator || path.take 2 == "./".toList || path.take 3 == "../".toList ||
    path == ['.'] || path == ['.', '.']

/-- The paths that a relative path may mean, each with a flag that says whether it is told. -/
def directoryCandidates (search path : Text) : List (Bool × Text) :=
  (List.splitOn ':' search).map fun start =>
    if start = [] then (false, path) else (true, Path.join start path)

/-- The command `cd`. -/
def changeDirectory : Action := fun arguments => do
  let (options, words) ← readFlags ['L', 'P'] arguments
  let physical := options.getLast? = some 'P'
  let told : Running Reply := do
    pure (.ofText ((← get).directory ++ ['\n']))
  let (tells, path) ← match words with
    | [] => do pure (false, ← value? "HOME".toList)
    | ['-'] :: _ => do pure (true, ← value? "OLDPWD".toList)
    | word :: _ => pure (false, some word)
  let given := path.getD []
  let refused : Running Reply := fail ("can't cd to ".toList ++ given)
  if isAnchored given then
    if ← enterDirectory physical given then
      if tells then told else pure {}
    else refused
  else
    let path := if given = [] then ['.'] else given
    let candidates := directoryCandidates ((← value? "CDPATH".toList).getD []) path
    let view ← look
    let isThere (candidate : Bool × Text) : Bool :=
      (view.files.findDirectory view.directory candidate.2).isOk
    let (shows, path) := (candidates.find? isThere).getD (false, given)
    if ← enterDirectory physical path then
      if tells || shows then told else pure {}
    else refused

/-- The command `pwd`. -/
def workingDirectory : Action := fun arguments => do
  let (options, _) ← readFlags ['L', 'P'] arguments
  let path ← if options.getLast? = some 'P' then physicalPath else do pure (← get).directory
  pure (.ofText (path ++ ['\n']))

/-! ## The mask -/

/-- A mask in four octal digits. -/
def octalMask (mask : Nat) : Text :=
  let digits := Nat.toDigits 8 mask
  List.replicate (4 - digits.length) '0' ++ digits

/-- What a mask allows, in letters. -/
def symbolicMask (mask : Nat) : Text :=
  let letters (bits : Nat) : Text :=
    [(4, 'r'), (2, 'w'), (1, 'x')].filterMap fun entry =>
      if bits &&& entry.1 = 0 then some entry.2 else none
  [','].intercalate
    [['u', '='] ++ letters (mask / 64), ['g', '='] ++ letters (mask / 8),
      ['o', '='] ++ letters mask]

/-- The mask that a word stands for. -/
def maskOf (word : Text) (mask : Nat) : Running Nat := do
  if word.head?.any Char.isDigit then
    if word.all fun c => '0' ≤ c && c ≤ '7' then
      pure (word.foldl (fun n c => 8 * n + (c.toNat - '0'.toNat)) 0 % 0o1000)
    else failNumber word
  else
    let step (allowed : Option Nat) (change : Text) : Option Nat :=
      allowed.bind (Tool.changedMode? change)
    match (List.splitOn ',' word).foldl step (some (0o777 - mask % 0o1000)) with
    | some allowed => pure (0o777 - allowed % 0o1000)
    | none => fail ("Illegal mode: ".toList ++ word)

/-- The command `umask`. -/
def changeMask : Action := fun arguments => do
  let (options, words) ← readFlags ['S'] arguments
  let mask := (← look).mask
  match words with
  | [] =>
    let text := if options = [] then octalMask mask else symbolicMask mask
    pure (.ofText (text ++ ['\n']))
  | word :: _ =>
    ask (.setMask (← maskOf word mask))
    pure {}

/-! ## Signals -/

/-- Let a signal do what a script says: nothing if the text is empty, and what it does to any
process if there is no text. -/
def setTrap (signal : Nat) (text : Option Text) : Running Unit := do
  modify fun r => { r with
    traps := text.toList.map (fun text => (signal, text)) ++
      r.traps.filter fun entry => entry.1 != signal }
  if signal != 0 && !(← get).fixed.contains signal then
    ask (.setAction signal (match text with
      | none => .default
      | some [] => .ignore
      | some _ => .note))

/-- The command `trap`. -/
def trap : Action := fun arguments => do
  let (_, words) ← readFlags [] arguments
  let setAll (text : Option Text) (names : List Text) : Running Reply := do
    for name in names do
      match SignalName.number? 0 name with
      | some signal => setTrap signal text
      | none =>
        write Task.errors ("trap: ".toList ++ name ++ ": bad trap\n".toList)
        return .ofStatus 1
    pure {}
  match words with
  | [] =>
    let traps := (← get).traps.mergeSort fun a b => a.1 ≤ b.1
    pure (.ofText (traps.flatMap fun entry =>
      "trap -- ".toList ++ quoted entry.2 ++ ' ' :: SignalName.name entry.1 ++ ['\n']))
  | [name] => setAll none [name]
  | first :: names =>
    if first.all Char.isDigit && (SignalName.number? 0 first).isSome then
      setAll none (first :: names)
    else setAll (if first = ['-'] then none else some first) names

end Conch.Script.Action
