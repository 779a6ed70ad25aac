import Conch.Files.Change
import Conch.Tool.Options

/-!
# Programs that change the tree of files

These programs create, remove, rename and list the entries of directories.  Each does its work
operand by operand, and reports those with which it fails.

Where the last operand of several is a directory, the others are put into it under the last
name of their paths.
-/

namespace Conch.Tool

/-- Refuse to work without an operand. -/
def Call.missingOperand (call : Call) : Task Nat :=
  call.refuse "missing operand".toList 1

/-- The paths that lead to a path, from the shortest to itself. -/
def pathsTo (path : Text) : List Text :=
  let names := Path.names path
  (List.range names.length).map fun k =>
    let part := [Path.separator].intercalate (names.take (k + 1))
    if part = [] then [Path.separator] else part

/-- Create directories. -/
def makeDirectories (call : Call) : Task Nat :=
  call.withOptions (letters ['p']) fun settings => do
    if settings.operands = [] then call.missingOperand
    else
      let what (path : Text) : Text := "cannot create directory ".toList ++ quoted path
      let create (path : Text) (view : View) : Except IoError FileTree :=
        view.files.make view.directory path fun parent => .directory parent []
      let createMissing (path : Text) (view : View) : Except IoError FileTree :=
        match view.files.findDirectory view.directory path with
        | .ok _ => .ok view.files
        | .error _ => create path view
      forEach (fun operand =>
        if settings.has 'p' then do
          let code ← forEach (fun path => call.change (what path) (createMissing path))
            (pathsTo (Path.trimEnd operand))
          pure (code = 0)
        else call.change (what operand) (create operand)) settings.operands

/-- The options of the program `rmdir`. -/
def removalOptions : List OptionName :=
  [named 'p' "parents", named 'p' "path", named 'v' "verbose",
    { named '!' "ignore-fail-on-non-empty" with isLetter := false }]

/-- The path of the directory above the last name of a path. -/
def parentPath? (path : Text) : Option Text :=
  let isSlash (c : Char) : Bool := c == Path.separator
  match path.reverse.dropWhile fun c => !isSlash c with
  | [] => none
  | before =>
    match before.dropWhile isSlash with
    | [] => some [Path.separator]
    | before => some before.reverse

/-- Is it a path with a slash behind it that a symbolic link is in the way of? -/
def endsAtLink (view : View) (path : Text) : Bool :=
  Path.endsInSeparator path &&
    (match view.files.find view.directory path with
      | .ok file => view.files.isDirectory file
      | .error e => e != .system .notDirectory) &&
    (match view.files.findFor .entry view.directory (Path.trimEnd path) with
      | .ok file => match view.files.node? file with
        | some (.link _) => true
        | _ => false
      | .error _ => false)

/-- What has come of the removal of a directory: whether it is gone, and whether nothing has gone
wrong. -/
structure Removal where
  isGone : Bool
  succeeded : Bool
  deriving DecidableEq, Repr

/-- Remove one directory; its removal is announced, and a failure reported, as the options say. -/
def removeDirectoryOnce (call : Call) (settings : Settings) (isParent : Bool) (path : Text) :
    Buffering Removal := do
  if settings.has 'v' then
    Buffering.put (Utf8.encode (call.reportText ("removing directory, ".toList ++ quoted path)))
  let before ← liftM Task.look
  match ← liftM (Task.change fun view => view.files.removeDirectory view.directory path) with
  | .ok () => pure ⟨true, true⟩
  | .error e =>
    let isFull := match before.files.findDirectory before.directory path with
      | .ok directory => !(before.files.entries directory).isEmpty
      | .error _ => false
    let reasons : List IoError := [.system .accessDenied, .system .busy]
    if settings.has '!' && (e = .system .notEmpty || (isFull && reasons.contains e)) then
      pure ⟨false, true⟩
    else
      let refused := "failed to remove ".toList
      if !isParent && e = .system .notDirectory && endsAtLink before path then
        call.reportLater (refused ++ quoted path ++ ": Symbolic link not followed".toList)
      else
        let kind := if isParent && e != .system .notDirectory then "directory ".toList else []
        call.reportFailureLater (refused ++ kind ++ quoted path) e
      pure ⟨false, false⟩

/-- Remove the directories above a path, from the last one on, until that fails. -/
def removeParents (call : Call) (settings : Settings) : (fuel : Nat) → Text → Buffering Bool
  | 0, _ => pure true
  | fuel + 1, path =>
    match parentPath? path with
    | none => pure true
    | some parent => do
      let removal ← removeDirectoryOnce call settings true parent
      if removal.isGone then removeParents call settings fuel parent
      else pure removal.succeeded

/-- Remove empty directories. -/
def removeDirectories (call : Call) : Task Nat :=
  call.withOptions removalOptions fun settings => do
    if settings.operands = [] then call.missingOperand
    else call.buffering do
      let succeeded ← settings.operands.mapM fun operand => do
        let removal ← removeDirectoryOnce call settings false operand
        if removal.isGone && settings.has 'p' then
          removeParents call settings operand.length (Path.trimEnd operand)
        else pure removal.succeeded
      pure (if succeeded.all id then 0 else 1)

/-- Create named pipes. -/
def makePipes (call : Call) : Task Nat :=
  call.withOptions [] fun settings => do
    if settings.operands = [] then call.missingOperand
    else forEach (fun operand =>
      call.change ("cannot create fifo ".toList ++ quoted operand) fun view =>
        view.files.make view.directory operand fun _ => .pipe) settings.operands

/-- Create files that are missing. -/
def touch (call : Call) : Task Nat :=
  call.withOptions (letters ['c', 'a', 'm']) fun settings => do
    if settings.operands = [] then call.refuse "missing file operand".toList 1
    else forEach (fun operand =>
      call.change ("cannot touch ".toList ++ quoted operand) fun view =>
        match view.files.find view.directory operand with
        | .ok _ => .ok view.files
        | .error e =>
          if settings.has 'c' then
            if e = .system .noEntry then .ok view.files else .error e
          else
            (view.files.openKeeping view.directory
              (FileTree.masked Task.usualMode view.mask) operand).map Prod.snd) settings.operands

/-! ## Removing -/

/-- Remove a file, or a directory with all that is in it.  `depth` bounds how deep the directories
are. -/
def removeAll (call : Call) (recursive forced : Bool) : (depth : Nat) → Text → Task Bool
  | 0, _ => pure true
  | depth + 1, path => do
    let view ← Task.look
    let what := "cannot remove ".toList ++ quoted path
    match view.files.findFor .entry view.directory path with
    | .error e =>
      if forced && (e = .system .noEntry || e = .system .notDirectory) then pure true
      else
        call.reportFailure what e
        pure false
    | .ok file =>
      if view.files.isDirectory file then
        if !recursive then
          call.reportFailure what (.system .isDirectory)
          pure false
        else
          let names := (view.files.entries file).map Prod.fst
          let code ← forEach (fun name =>
            removeAll call recursive forced depth (Path.join path name)) names
          if code != 0 then pure false
          else call.change what fun view => view.files.removeDirectory view.directory path
      else call.change what fun view => view.files.remove view.directory path

/-- Remove files. -/
def remove (call : Call) : Task Nat :=
  call.withOptions (letters ['r', 'R', 'f']) fun settings => do
    let forced := settings.has 'f'
    let recursive := settings.has 'r' || settings.has 'R'
    if settings.operands = [] && !forced then call.missingOperand
    else
      let depth := (← Task.look).files.nodes.size + 1
      forEach (removeAll call recursive forced depth) settings.operands

/-! ## From one place to another -/

/-- Do something with sources and the paths they get.  The last operand is the path, or the
directory that all are put into. -/
def Call.withTargets (call : Call) (operands : List Text)
    (action : (source target : Text) → Task Bool) : Task Nat := do
  match operands.dropLast, operands.getLast? with
  | [], none => call.refuse "missing file operand".toList 1
  | [], some only =>
    call.refuse ("missing destination file operand after ".toList ++ quoted only) 1
  | sources, last =>
    let last := last.getD []
    let view ← Task.look
    let isDirectory := (view.files.findDirectory view.directory last).isOk
    if isDirectory then
      forEach (fun source => action source (Path.join last (Path.lastName source))) sources
    else
      match sources with
      | [source] =>
        let succeeded ← action source last
        pure (if succeeded then 0 else 1)
      | _ =>
        call.reportFailure ("target ".toList ++ quoted last) (.system .notDirectory)
        pure 1

/-- Rename one file. -/
def moveOne (call : Call) (source target : Text) : Task Bool := do
  let view ← Task.look
  let find (path : Text) : Except IoError FileId :=
    view.files.findFor .entry view.directory path
  match find source with
  | .error e =>
    call.reportFailure ("cannot stat ".toList ++ quoted source) e
    pure false
  | .ok file =>
    let old := (find target).toOption
    let isDirectory := view.files.isDirectory
    if old = some file then
      call.report (quoted source ++ " and ".toList ++ quoted target ++
        " are the same file".toList)
      pure false
    else if old.any fun old => isDirectory old && !isDirectory file then
      call.report ("cannot overwrite directory ".toList ++ quoted target ++
        " with non-directory".toList)
      pure false
    else if old.any fun old => !isDirectory old && isDirectory file then
      call.report ("cannot overwrite non-directory ".toList ++ quoted target ++
        " with directory ".toList ++ quoted source)
      pure false
    else
      match ← Task.change fun view => view.files.rename view.directory source target with
      | .ok () => pure true
      | .error e =>
        if e = .system .invalidArgument then
          call.report ("cannot move ".toList ++ quoted source ++
            " to a subdirectory of itself, ".toList ++ quoted target)
        else
          call.reportFailure ("cannot move ".toList ++ quoted source ++ " to ".toList ++
            quoted target) e
        pure false

/-- Rename files. -/
def move (call : Call) : Task Nat :=
  call.withOptions (letters ['f', 'i', 'n', 'v', 'u']) fun settings =>
    call.withTargets settings.operands (moveOne call)

/-- Copy one file. -/
def copyOne (call : Call) (source target : Text) : Task Bool := do
  let view ← Task.look
  match view.files.find view.directory source with
  | .error e =>
    call.reportFailure ("cannot stat ".toList ++ quoted source) e
    pure false
  | .ok file =>
    if view.files.isDirectory file then
      call.report ("-r not specified; omitting directory ".toList ++ quoted source)
      pure false
    else if (view.files.find view.directory target).toOption = some file then
      call.report (quoted source ++ " and ".toList ++ quoted target ++ " are the same file".toList)
      pure false
    else
      let mode := match view.files.node? file with
        | some (.file _ mode) => mode
        | _ => 0o755
      match ← Task.openFile source .read mode with
      | .error e =>
        call.reportFailure ("cannot open ".toList ++ quoted source ++ " for reading".toList) e
        pure false
      | .ok reading =>
        match ← Task.openFile target .write mode with
        | .error e =>
          call.reportFailure ("cannot create regular file ".toList ++ quoted target) e
          pure false
        | .ok writing =>
          let rec copy : (fuel : Nat) → Task Unit
            | 0 => pure ()
            | fuel + 1 => do
              match ← Task.ask (.read reading 131072) with
              | .error _ | .ok [] => pure ()
              | .ok bytes =>
                let _ ← Task.ask (.write writing bytes)
                copy fuel
          copy Task.patience
          Task.ask (.close reading)
          Task.ask (.close writing)
          pure true

/-- Copy files. -/
def copy (call : Call) : Task Nat :=
  call.withOptions (letters ['f', 'p', 'i', 'n', 'v', 'u']) fun settings =>
    call.withTargets settings.operands (copyOne call)

/-- Give one file another name, or make a link to it. -/
def linkOne (call : Call) (symbolic forced : Bool) (source target : Text) : Task Bool := do
  let view ← Task.look
  let kind := if symbolic then "symbolic link " else "hard link "
  let what := "failed to create ".toList ++ kind.toList ++ quoted target
  let cleared (view : View) : FileTree :=
    if forced then (view.files.remove view.directory target).toOption.getD view.files
    else view.files
  if symbolic then
    call.change what fun view => (cleared view).make view.directory target fun _ => .link source
  else
    match view.files.findFor .entry view.directory source with
    | .error e =>
      call.reportFailure ("failed to access ".toList ++ quoted source) e
      pure false
    | .ok file =>
      if view.files.isDirectory file then
        call.report (shown source ++ ": hard link not allowed for directory".toList)
        pure false
      else call.change what fun view => (cleared view).link view.directory file target

/-- Give files other names, or make links to them. -/
def link (call : Call) : Task Nat :=
  call.withOptions (letters ['s', 'f', 'n', 'T']) fun settings =>
    let operands := match settings.operands with
      | [only] => [only, Path.lastName only]
      | operands => operands
    call.withTargets operands (linkOne call (settings.has 's') (settings.has 'f'))

/-! ## What there is -/

/-- Texts in order. -/
def sorted (texts : List Text) : List Text :=
  texts.mergeSort fun a b => String.ofList a ≤ String.ofList b

/-- The names in a directory that are listed. -/
def listedNames (settings : Settings) (view : View) (directory : FileId) : List Text :=
  let names := (view.files.entries directory).map Prod.fst
  let names := if settings.has 'a' then ['.'] :: ['.', '.'] :: names else names
  let hidden (name : Text) : Bool := name.head? == some '.'
  sorted (if settings.has 'a' || settings.has 'A' then names
    else names.filter fun name => !hidden name)

/-- List files and what is in directories. -/
def list (call : Call) : Task Nat :=
  call.withOptions (letters ['1', 'a', 'A', 'd']) fun settings => do
    let view ← Task.look
    let find (operand : Text) : Except IoError FileId :=
      if settings.has 'd' then view.files.findFor .entry view.directory operand
      else match view.files.find view.directory operand with
        | .ok file => .ok file
        | .error _ => view.files.findFor .entry view.directory operand
    let operands := sorted (if settings.operands = [] then [['.']] else settings.operands)
    let code ← forEach (fun operand => do
      match find operand with
      | .ok _ => pure true
      | .error e =>
        call.reportFailure ("cannot access ".toList ++ quoted operand) e
        pure false) operands
    let found := operands.filterMap fun operand =>
      (find operand).toOption.map fun file => (operand, file)
    let isDirectory (entry : Text × FileId) : Bool :=
      !settings.has 'd' && view.files.isDirectory entry.2
    let line (name : Text) : Text := name ++ ['\n']
    let plain := (found.filter fun entry => !isDirectory entry).flatMap fun entry => line entry.1
    let parts := (found.filter isDirectory).map fun entry =>
      (if operands.length > 1 then entry.1 ++ ":\n".toList else []) ++
        (listedNames settings view entry.2).flatMap line
    let text := ['\n'].intercalate ((if plain = [] then [] else [plain]) ++ parts)
    call.finish text (if code = 0 then 0 else 2) 2

/-- The absolute path of the working directory. -/
def workingPath? (view : View) : Option Text :=
  view.files.pathOf? view.directory

/-- The path of the working directory that a variable holds, if that is what it is. -/
def logicalPath? (call : Call) (view : View) : Option Text :=
  (call.valueOf? "PWD").filter fun path =>
    Path.isAbsolute path &&
      !(Path.names path).any (fun name => name = ['.'] || name = ['.', '.']) &&
      (view.files.find view.directory path).toOption == some view.directory

/-- Tell the working directory. -/
def workingDirectory (call : Call) : Task Nat :=
  call.withOptions [named 'L' "logical", named 'P' "physical"] fun settings => do
    if settings.operands != [] then call.report "ignoring non-option arguments".toList
    let view ← Task.look
    let logical :=
      if (settings.lastOf? ['L', 'P']).any fun option => option.1 == 'L' then
        logicalPath? call view
      else none
    match logical.or (workingPath? view) with
    | some path => call.finish (path ++ ['\n']) 0
    | none =>
      call.report "couldn't find directory entry in '..' with matching i-node".toList
      pure 1

/-! ## Modes -/

/-- The bits that letters of a symbolic mode stand for. -/
def modeBits (letters : Text) : Nat :=
  letters.foldl (fun bits c =>
    bits ||| (match c with | 'r' => 4 | 'w' => 2 | 'x' => 1 | _ => 0)) 0

/-- The bits of those whom letters name. -/
def modeOwners (letters : Text) : Nat :=
  if letters = [] || letters.contains 'a' then 0o111
  else letters.foldl (fun bits c =>
    bits ||| (match c with | 'u' => 0o100 | 'g' => 0o010 | 'o' => 0o001 | _ => 0)) 0

/-- A mode after a change that is written in octal digits or letters. -/
def changedMode? (change : Text) (mode : Nat) : Option Nat :=
  if change != [] && change.all fun c => '0' ≤ c && c ≤ '7' then
    some (change.foldl (fun n c => 8 * n + (c.toNat - '0'.toNat)) 0)
  else
    let owners := change.takeWhile ['u', 'g', 'o', 'a'].contains
    let bits (letters : Text) : Nat := modeOwners owners * modeBits letters
    match change.drop owners.length with
    | '+' :: letters => some (mode ||| bits letters)
    | '-' :: letters => some (mode - (mode &&& bits letters))
    | '=' :: letters =>
      some (mode - (mode &&& modeOwners owners * 7) ||| bits letters)
    | _ => none

/-- Change what may be done with files. -/
def changeModes (call : Call) : Task Nat := do
  match call.arguments with
  | [] => call.missingOperand
  | [change] => call.refuse ("missing operand after ".toList ++ cited change) 1
  | change :: operands =>
    if (changedMode? change 0).isNone then
      call.refuse ("invalid mode: ".toList ++ cited change) 1
    else forEach (fun operand =>
      call.change ("cannot access ".toList ++ quoted operand) fun view =>
        match view.files.find view.directory operand with
        | .error e => .error e
        | .ok file =>
          match view.files.node? file with
          | some (.file _ mode) =>
            .ok (view.files.setMode file ((changedMode? change mode).getD mode))
          | _ => .ok view.files) operands

end Conch.Tool
