import Conch.Files.Change
import Conch.ShellError

/-!
# Opening the targets of redirections

A child opens the target of its input first and that of its output afterwards, so an input
that cannot be opened leaves the target of the output alone.
-/

namespace Conch.Redirects

/-- The targets of redirections, opened: what standard input is read from, where standard output
goes, and the files afterwards. -/
structure Opened where
  input : Option FileId
  output : Option FileId
  files : FileTree

/-- Open the target of the input, if there is one. -/
def openInput (r : Redirects) (files : FileTree) (here : FileId) :
    Except ShellError (Option FileId) :=
  match r.input with
  | none => .ok none
  | some path =>
    match files.openInput here path with
    | .ok file => .ok (some file)
    | .error reason => .error (.cannotOpen path .input reason)

/-- Open the target of the output, if there is one; `mask` says what a file that is created may not
allow. -/
def openOutput (r : Redirects) (files : FileTree) (here : FileId) (mask : Nat) :
    Except ShellError (Option FileId × FileTree) :=
  match r.output with
  | none => .ok (none, files)
  | some path =>
    match files.openOutput here (FileTree.masked FileTree.outputMode mask) path with
    | .ok (file, files) => .ok (some file, files)
    | .error reason => .error (.cannotOpen path .output reason)

/-- Open the targets, the input first. -/
def openTargets (r : Redirects) (files : FileTree) (here : FileId) (mask : Nat) :
    Except ShellError Opened :=
  match r.openInput files here with
  | .error e => .error e
  | .ok input =>
    match r.openOutput files here mask with
    | .error e => .error e
    | .ok (output, files) => .ok { input, output, files }

end Conch.Redirects
