import Conch.Script.Builtin.Table
import Conch.Script.Redirection

/-!
# What names mean

The name of a command is a reserved word, an alias, a function, a builtin command or a program.
A program is looked for in the directories of the search path, and where it was found is
remembered, so that the next time the search begins there.  What is remembered is forgotten when
the search path changes; when the working directory changes it is only checked.
-/

namespace Conch.Script.Action

open Running

/-- What a name means as a command: a word of the grammar, an alias, a function, a builtin command,
a program, by a path and the number of the directory that it was found in, or nothing, for a
reason. -/
inductive Meaning where
  | reserved
  | standsFor (text : Text)
  | function (body : Clause)
  | builtin
  | program (path : Text) (index : Nat)
  | missing (reason : Errno)

/-! ## Searching -/

/-- The directories of a search path. -/
def directoriesOf (path : Text) : List Text :=
  List.splitOn ':' path

/-- The directories in which programs are looked for. -/
def searchDirectories : Running (List Text) := do
  pure (directoriesOf ((← value? searchVariable).getD []))

/-- The path of a name in a directory of a search path. -/
def pathIn (directory name : Text) : Text :=
  if directory = [] then name else Path.join directory name

/-- The path of a name in one of some directories. -/
def pathAt (directories : List Text) (index : Nat) (name : Text) : Text :=
  pathIn (directories.getD index []) name

/-- The first program by a name in some directories, of which the first has a number; `reason` is
why there is none. -/
def findProgram (view : View) (name : Text) :
    (reason : Errno) → (index : Nat) → List Text → Meaning
  | reason, _, [] => .missing reason
  | reason, index, directory :: rest =>
    match view.find (pathIn directory name) with
    | .ok node =>
      if node.isRegular && node.permits .running then .program (pathIn directory name) index
      else findProgram view name .accessDenied (index + 1) rest
    | .error (.system errno) =>
      findProgram view name
        (if errno = .noEntry || errno = .notDirectory then reason else errno) (index + 1) rest
    | .error .nulInPath => findProgram view name reason (index + 1) rest

/-- Forget where a program is. -/
def forgetLocation (name : Text) : Running Unit :=
  modify fun r => { r with located := r.located.filter fun entry => entry.1 != name }

/-- Find a program in the search path, and remember where it is. -/
def locate (name : Text) : Running Meaning := do
  let directories ← searchDirectories
  let path (index : Nat) : Text := pathAt directories index name
  let remember (index : Nat) : Running Meaning := do
    modify fun r => { r with located := putEntry name { index } r.located }
    pure (.program (path index) index)
  let search (start : Nat) : Running Meaning := do
    match findProgram (← look) name .noEntry start (directories.drop start) with
    | .program _ index => remember index
    | other =>
      forgetLocation name
      pure other
  match (← get).located.lookup name with
  | none => search 0
  | some { index, isStale } =>
    if !isStale then pure (.program (path index) index)
    else
      let isFixed (k : Nat) : Bool := Path.isAbsolute (path k)
      match (List.range index).find? fun k => !isFixed k with
      | some k => search k
      | none => if isFixed index then remember index else search index

/-! ## Names -/

/-- What a name means to the one who runs the script, apart from programs; functions do not count if
they are passed over. -/
def ownMeaning? (name : Text) (functions : Bool) : Running (Option Meaning) := do
  if name.contains Path.separator then pure none
  else
    let known := (← get).functions
    match if functions then known.lookup name else none with
    | some body => pure (some (.function body))
    | none => pure (if isBuiltin name then some .builtin else none)

/-- The program that a name means.  It is remembered only if it is looked for in the search path and
there is no function by that name. -/
def programNamed (name : Text) (path? : Option Text) : Running Meaning := do
  if name.contains Path.separator then pure (.program name 0)
  else
    match path? with
    | some path => pure (findProgram (← look) name .noEntry 0 (directoriesOf path))
    | none =>
      if ((← get).functions.lookup name).isSome then
        pure (findProgram (← look) name .noEntry 0 (← searchDirectories))
      else locate name

/-- What a name means as a command. -/
def meaning (name : Text) : Running Meaning := do
  match ← ownMeaning? name true with
  | some found => pure found
  | none => programNamed name none

/-- What a name means, reserved words and aliases included, and whether that is remembered.  A path
means something only if it leads somewhere. -/
def wholeMeaning (path? : Option Text) (name : Text) : Running (Meaning × Bool) := do
  let r ← get
  if reservedWords.any fun word => word.toList == name then pure (.reserved, false)
  else
    match r.aliases.lookup name, path?, r.located.lookup name with
    | some text, _, _ => pure (.standsFor text, false)
    | none, none, some location =>
      pure (.program (pathAt (← searchDirectories) location.index name) location.index, true)
    | none, _, _ =>
      match ← ownMeaning? name true with
      | some found => pure (found, false)
      | none =>
        let found ← programNamed name path?
        let isThere := (← look).find name matches .ok _
        pure (if name.contains Path.separator && !isThere then .missing .noEntry else found, false)

/-- Tell what a name means, at length or in a word. -/
def describe (path? : Option Text) (long : Bool) (name : Text) : Running (Nat × Text) := do
  let say (text : String) : Nat × Text :=
    (0, if long then name ++ text.toList ++ ['\n'] else name ++ ['\n'])
  let (found, isRemembered) ← wholeMeaning path? name
  match found with
  | .reserved => pure (say " is a shell keyword")
  | .standsFor text =>
    pure (0,
      if long then name ++ " is an alias for ".toList ++ text ++ ['\n']
      else "alias ".toList ++ Alias.shown name text ++ ['\n'])
  | .function _ => pure (say " is a shell function")
  | .builtin =>
    pure (say (if isSpecial name then " is a special shell builtin" else " is a shell builtin"))
  | .program path _ =>
    let verb := if isRemembered then " is a tracked alias for " else " is "
    pure (0, (if long then name ++ verb.toList else []) ++ path ++ ['\n'])
  | .missing _ => pure (127, if long then name ++ ": not found\n".toList else [])

/-- Tell what names mean; the status is that of the last one that means nothing. -/
def describeAll (path? : Option Text) (long : Bool) : Action := fun names => do
  names.foldlM (fun (reply : Reply) name => do
    let (status, text) ← describe path? long name
    pure
      { status := if status = 0 then reply.status else status
        output := reply.output ++ Utf8.encode text }) {}

/-- The command `type`. -/
def type : Action :=
  describeAll none true

/-- How many places there are in the table of programs. -/
def programPlaces : Nat := 31

/-- The programs whose places are remembered; a star marks those that have to be checked. -/
def listLocated : Running Text := do
  let directories ← searchDirectories
  pure ((tableOrder programPlaces (← get).located).flatMap fun entry =>
    pathAt directories entry.2.index entry.1 ++ (if entry.2.isStale then ['*'] else []) ++ ['\n'])

/-- Forget where a program is, and look for it; the answer tells whether there is something by its
name. -/
def lookAgain (name : Text) : Running Bool := do
  forgetLocation name
  match ← meaning name with
  | .missing reason =>
    report (name ++ ": ".toList ++ missingText "not found" (.system reason))
    pure false
  | _ => pure true

/-- The command `hash`. -/
def hash : Action := fun arguments => do
  let (options, names) ← readFlags ['r'] arguments
  if options != [] then
    modify fun r => { r with located := [] }
    pure {}
  else
    if names = [] then pure (.ofText (← listLocated))
    else
      names.foldlM (fun (reply : Reply) name => do
        pure (if ← lookAgain name then reply else .ofStatus 1)) {}

end Conch.Script.Action
