import Conch.Files.Path
import Conch.Process.Routine

/-!
# Running a program by its name

A name with a slash in it is the path of the program; any other is looked for in the
directories of the search path, one after the other.  A file that may be run but is in no form
that the system knows is run by `sh`.
-/

namespace Conch.Task

/-- The directories in which programs are looked for. -/
def searchPath : List Text :=
  ["/usr/local/bin".toList, "/usr/bin".toList, "/bin".toList]

/-- The path of the program that runs what is in no form of its own. -/
def scriptRunner : Text := "/bin/sh".toList

/-- Become the program at a path; there is a result only if that fails. -/
def becomeAt (path : Text) (words : List Text) (environment : List (Text × Text)) :
    Task Errno := do
  let errno : Errno ← ask (.become path words environment)
  if errno = .notExecutable then
    ask (.become scriptRunner (scriptRunner :: path :: words.drop 1) environment)
  else pure errno

/-- Become the first program of that name in the directories; `denied` remembers whether one was
found that may not be run. -/
def becomeFirst (words : List Text) (environment : List (Text × Text)) :
    (denied : Bool) → List Text → Task Errno
  | denied, [] => pure (if denied then .accessDenied else .noEntry)
  | denied, directory :: rest => do
    let errno ← becomeAt (Path.join directory (words.headD [])) words environment
    if errno = .accessDenied then becomeFirst words environment true rest
    else if errno = .noEntry || errno = .notDirectory then
      becomeFirst words environment denied rest
    else pure errno

/-- Become the program that the first word names; there is a result only if that fails. -/
def become (words : List Text) (environment : List (Text × Text)) : Task Errno :=
  match words with
  | [] | [] :: _ => pure .noEntry
  | name :: _ =>
    if name.contains Path.separator then becomeAt name words environment
    else if Utf8.size name > FileTree.nameLimit then pure .nameTooLong
    else becomeFirst words environment false searchPath

end Conch.Task
