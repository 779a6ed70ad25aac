import Conch.Errno
import Conch.Files.Path

/-!
# Files

A tree of files is a table of nodes.  A directory gives names to nodes, and a node may have
several names or none: what was removed lives on for a process that has it open or stands in
it.  Every directory knows the one it is in, so that a process can go up, and the root is in
itself.

A node is known by its number, which is never given to another.

All files belong to one user, and every process acts for that user; so of the mode of a file only
the three rights of its owner count.
-/

namespace Conch

/-- The number of a node, which is its index in the table. -/
structure FileId where
  index : Nat
  deriving DecidableEq, Repr

/-- What a file is.  A directory knows the one it is in and what it names; a file holds bytes and
has a mode; a pipe may have a name or none.  Of the devices `null` is always empty and takes
anything, `zero` gives zeros and takes anything, `full` gives zeros and is always full, and
`terminal` and `descriptor` are about the process that looks.  A program is one of the system. -/
inductive Node where
  | directory (parent : FileId) (entries : List (Text × FileId))
  | file (contents : List UInt8) (mode : Nat)
  | link (target : Text)
  | pipe
  | null
  | zero
  | full
  | terminal
  | descriptor (number : Nat)
  | program (name : Text)
  deriving DecidableEq, Repr

/-- What may be done with a file: to read it, to write it, or to run it as a program. -/
inductive Right where
  | reading
  | writing
  | running
  deriving DecidableEq, Repr

/-- The bit of a mode that gives a right to the owner. -/
def Right.bit : Right → Nat
  | reading => 0o400
  | writing => 0o200
  | running => 0o100

namespace Node

/-- Is it a directory? -/
def isDirectory : Node → Bool
  | directory .. => true
  | _ => false

/-- Is it a symbolic link? -/
def isLink : Node → Bool
  | link _ => true
  | _ => false

/-- Is it a device? -/
def isDevice : Node → Bool
  | null | zero | full | terminal => true
  | _ => false

/-- Is it a file in the narrow sense? -/
def isRegular : Node → Bool
  | file .. | program _ => true
  | _ => false

/-- What can be read from it without waiting. -/
def contents : Node → List UInt8
  | file contents _ => contents
  | _ => []

/-- May something be done with it?  What has no mode of its own can be read and written. -/
def permits (right : Right) : Node → Bool
  | file _ mode => mode &&& right.bit != 0
  | program _ => true
  | _ => right != .running

end Node

/-- A tree of files; the first node is the root. -/
structure FileTree where
  nodes : Array Node := #[.directory ⟨0⟩ []]
  deriving DecidableEq, Repr

namespace FileTree

/-- The root. -/
def root : FileId := ⟨0⟩

/-- The node with a number. -/
def node? (t : FileTree) (file : FileId) : Option Node :=
  t.nodes[file.index]?

/-- Change a node. -/
def setNode (t : FileTree) (file : FileId) (node : Node) : FileTree :=
  ⟨t.nodes.setIfInBounds file.index node⟩

/-- Add a node that has no name. -/
def add (t : FileTree) (node : Node) : FileId × FileTree :=
  (⟨t.nodes.size⟩, ⟨t.nodes.push node⟩)

/-- What a file holds. -/
def contents (t : FileTree) (file : FileId) : List UInt8 :=
  ((t.node? file).map Node.contents).getD []

/-- Is it a directory? -/
def isDirectory (t : FileTree) (file : FileId) : Bool :=
  (t.node? file).any Node.isDirectory

/-- The entries of a directory. -/
def entries (t : FileTree) (directory : FileId) : List (Text × FileId) :=
  match t.node? directory with
  | some (.directory _ entries) => entries
  | _ => []

/-- The directory that a directory is in. -/
def parent (t : FileTree) (directory : FileId) : FileId :=
  match t.node? directory with
  | some (.directory parent _) => parent
  | _ => root

/-- What a directory names so. -/
def entry? (t : FileTree) (directory : FileId) (name : Text) : Option FileId :=
  (t.entries directory).lookup name

/-- Change the entries of a directory. -/
def setEntries (t : FileTree) (directory : FileId) (entries : List (Text × FileId)) : FileTree :=
  t.setNode directory (.directory (t.parent directory) entries)

/-- Name a file in a directory; what had the name before loses it. -/
def giveName (t : FileTree) (directory : FileId) (name : Text) (file : FileId) : FileTree :=
  t.setEntries directory
    ((t.entries directory).filter (fun entry => entry.1 != name) ++ [(name, file)])

/-- Take a name away. -/
def takeName (t : FileTree) (directory : FileId) (name : Text) : FileTree :=
  t.setEntries directory ((t.entries directory).filter fun entry => entry.1 != name)

/-- The name of a directory in the one it is in; a directory that was removed has none. -/
def nameOf? (t : FileTree) (directory : FileId) : Option Text :=
  ((t.entries (t.parent directory)).find? fun entry => entry.2 == directory).map Prod.fst

/-- Is a directory still part of the tree? -/
def isAttached (t : FileTree) (directory : FileId) : Bool :=
  directory == root || (t.nameOf? directory).isSome

/-- The names on the way from the root to a directory.  The way leads through each directory at most
once, so their number bounds the `depth`. -/
def wayTo (t : FileTree) : (depth : Nat) → FileId → Option (List Text)
  | 0, _ => none
  | depth + 1, directory =>
    if directory = root then some []
    else match t.nameOf? directory, t.wayTo depth (t.parent directory) with
      | some name, some way => some (way ++ [name])
      | _, _ => none

/-- The absolute path of a directory. -/
def pathOf? (t : FileTree) (directory : FileId) : Option Text :=
  (t.wayTo (t.nodes.size + 1) directory).map Path.ofNames

/-- Is a directory inside another one, or the same? -/
def isWithin (t : FileTree) (outer : FileId) : (depth : Nat) → FileId → Bool
  | 0, _ => false
  | depth + 1, directory =>
    directory == outer || (directory != root && t.isWithin outer depth (t.parent directory))

/-- Create a node in a directory. -/
def create (t : FileTree) (directory : FileId) (name : Text) (node : Node) : FileId × FileTree :=
  let (file, t) := t.add node
  (file, t.giveName directory name file)

/-- Go down from a directory by names, through directories that are created if need be. -/
def descend (t : FileTree) (directory : FileId) : List Text → FileId × FileTree
  | [] => (directory, t)
  | name :: rest =>
    match t.entry? directory name with
    | some file => t.descend file rest
    | none =>
      let (file, t) := t.create directory name (.directory directory [])
      t.descend file rest

/-- Put a node where names lead from the root, with the directories on the way. -/
def plant (t : FileTree) (names : List Text) (node : Node) : FileTree :=
  match names.getLast? with
  | none => t
  | some last =>
    let (directory, t) := t.descend root names.dropLast
    (t.create directory last node).2

end FileTree

end Conch
