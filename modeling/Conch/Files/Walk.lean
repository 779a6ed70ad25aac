import Conch.Files.Tree
import Conch.Text.Utf8

/-!
# Following paths

A path is followed from a directory, name by name and through symbolic links, and leads to a
file that is there, to a vacant name in a directory that is there, or nowhere.  Whoever follows
it may search every directory.

What the last name stands for depends on the purpose: the file that a link there leads to, the
link itself, or a file that is to be created.  A file that is to be created cannot have a slash
behind its name, whether it is there or not.
-/

namespace Conch

/-- What a path is followed for: the file it leads to, the entry it ends at, even if that is a link,
or a file that is created if it is missing. -/
inductive Purpose where
  | target
  | entry
  | creation
  deriving DecidableEq, Repr

/-- Where a path leads: to a file, or to a name in a directory that has no such entry. -/
inductive Destination where
  | found (file : FileId)
  | vacant (directory : FileId) (name : Text)
  deriving DecidableEq, Repr

/-- How far one gets along a path without following a link: to its end, or to a link in a directory
with the rest of the path still ahead, or not to its end. -/
inductive Stretch where
  | whole (destination : Destination)
  | link (directory : FileId) (target : Text) (rest : List Text)
  | failed (errno : Errno)
  deriving DecidableEq, Repr

/-- The last name of a path, none for the root, and the directory it is looked for in; a slash may
follow the name. -/
structure Slot where
  directory : FileId
  name : Text
  slash : Bool
  deriving DecidableEq, Repr

namespace FileTree

/-- How many bytes a name may have. -/
def nameLimit : Nat := 255

/-- How many bytes a path may have. -/
def pathLimit : Nat := 4095

/-- How many links may be followed on one way. -/
def linkLimit : Nat := 40

/-- Follow names from a directory, up to the first link. -/
def stretch (t : FileTree) (purpose : Purpose) (here : FileId) : List Text → Stretch
  | [] => if (t.node? here).isSome then .whole (.found here) else .failed .noEntry
  | name :: rest =>
    if !t.isDirectory here then .failed .notDirectory
    else if name = [] || name = ['.'] then stretch t purpose here rest
    else if name = ['.', '.'] then stretch t purpose (t.parent here) rest
    else if purpose = .creation && rest != [] && rest.all (· = []) then .failed .isDirectory
    else if Utf8.size name > nameLimit then .failed .nameTooLong
    else match t.entry? here name with
      | none => if rest = [] then .whole (.vacant here name) else .failed .noEntry
      | some file =>
        match t.node? file with
        | some (.link target) =>
          if rest = [] && purpose = .entry then .whole (.found file) else .link here target rest
        | _ => stretch t purpose file rest

/-- The directory a path starts from, for a process in the directory `here`. -/
def start (here : FileId) (path : Text) : FileId :=
  if Path.isAbsolute path then root else here

/-- Follow names from a directory, through at most `links` links. -/
def follow (t : FileTree) (purpose : Purpose) :
    (links : Nat) → FileId → List Text → Except Errno Destination
  | links, here, names =>
    match t.stretch purpose here names with
    | .whole destination => .ok destination
    | .failed errno => .error errno
    | .link directory target rest =>
      match links with
      | 0 => .error .tooManyLinks
      | links + 1 =>
        t.follow purpose links (start directory target) (Path.names target ++ rest)

/-- Is the path one that can be followed at all? -/
def checkPath (path : Text) : Except IoError Unit :=
  if path.contains '\x00' then .error .nulInPath
  else if path = [] then .error (.system .noEntry)
  else if Utf8.size path > pathLimit then .error (.system .nameTooLong)
  else .ok ()

/-- Where a path leads a process in the directory `here`. -/
def resolve (t : FileTree) (purpose : Purpose) (here : FileId) (path : Text) :
    Except IoError Destination :=
  match checkPath path with
  | .error e => .error e
  | .ok () => (t.follow purpose linkLimit (start here path) (Path.names path)).mapError .system

/-- The file that a path leads to. -/
def findFor (t : FileTree) (purpose : Purpose) (here : FileId) (path : Text) :
    Except IoError FileId :=
  match t.resolve purpose here path with
  | .error e => .error e
  | .ok (.vacant ..) => .error (.system .noEntry)
  | .ok (.found file) => .ok file

/-- The file that a path leads to through all links. -/
def find (t : FileTree) (here : FileId) (path : Text) : Except IoError FileId :=
  t.findFor .target here path

/-- May something be done with a file? -/
def permits (t : FileTree) (file : FileId) (right : Right) : Bool :=
  (t.node? file).any (Node.permits right)

/-- A file, if it can be opened to do something with it. -/
def checked (t : FileTree) (right : Right) (file : FileId) : Except IoError FileId :=
  if !t.permits file right then .error (.system .accessDenied)
  else if t.node? file = some .terminal then .error (.system .noDevice)
  else .ok file

/-- The file that a path leads to, if it may be read. -/
def openInput (t : FileTree) (here : FileId) (path : Text) : Except IoError FileId :=
  match t.find here path with
  | .error e => .error e
  | .ok file => t.checked .reading file

/-- The directory to which a path leads. -/
def findDirectory (t : FileTree) (here : FileId) (path : Text) : Except IoError FileId :=
  match t.find here path with
  | .error e => .error e
  | .ok file => if t.isDirectory file then .ok file else .error (.system .notDirectory)

/-- The slot that a path ends at. -/
def slot (t : FileTree) (here : FileId) (path : Text) : Except IoError Slot :=
  match checkPath path with
  | .error e => .error e
  | .ok () =>
    let names := Path.names (Path.trimEnd path)
    match t.follow .target linkLimit (start here path) (names.dropLast ++ [[]]) with
    | .error errno => .error (.system errno)
    | .ok (.vacant ..) => .error (.system .noEntry)
    | .ok (.found directory) =>
      .ok { directory, name := names.getLast?.getD [], slash := Path.endsInSeparator path }

end FileTree

/-- Is there a name that can be given and taken away? -/
def Slot.isProper (s : Slot) : Bool :=
  s.name != [] && s.name != ['.'] && s.name != ['.', '.']

end Conch
