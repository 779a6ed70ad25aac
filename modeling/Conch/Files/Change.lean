import Conch.Files.Walk

/-!
# Changes to files

`openOutput` is the one change that a redirection makes: it leaves an empty file where the path
leads, and every other file as it is.  The other changes are those that programs ask for: to
create, remove and rename.  A change that fails changes nothing.
-/

namespace Conch.FileTree

/-- What the owner and the others may do with a file that a redirection creates. -/
def outputMode : Nat := 0o644

/-- What may be done with a new file of which a mask denies something. -/
def masked (mode mask : Nat) : Nat :=
  mode &&& (0o777 - mask % 0o1000)

/-- Create an empty file at a vacant name.  A directory that was removed takes no entries. -/
def createFile (t : FileTree) (directory : FileId) (name : Text) (mode : Nat) :
    Except IoError (FileId × FileTree) :=
  if t.isAttached directory then .ok (t.create directory name (.file [] mode))
  else .error (.system .noEntry)

/-- Open a file for output, and create it with `mode` if it is missing; nothing it holds is lost. -/
def openKeeping (t : FileTree) (here : FileId) (mode : Nat) (path : Text) :
    Except IoError (FileId × FileTree) :=
  match t.resolve .creation here path with
  | .error e => .error e
  | .ok (.vacant directory name) => t.createFile directory name mode
  | .ok (.found file) =>
    if t.isDirectory file then .error (.system .isDirectory)
    else (t.checked .writing file).map fun file => (file, t)

/-- Make a file empty. -/
def truncate (t : FileTree) (file : FileId) : FileTree :=
  match t.node? file with
  | some (.file _ mode) => t.setNode file (.file [] mode)
  | _ => t

/-- Open a file for output: what it held is gone, and a missing file is created. -/
def openOutput (t : FileTree) (here : FileId) (mode : Nat) (path : Text) :
    Except IoError (FileId × FileTree) :=
  (t.openKeeping here mode path).map fun opened => (opened.1, opened.2.truncate opened.1)

/-- The bytes with others written over them from a position on. -/
def overwrite (bytes : List UInt8) (offset : Nat) (new : List UInt8) : List UInt8 :=
  let before := bytes.take offset
  before ++ List.replicate (offset - before.length) 0 ++ new ++ bytes.drop (offset + new.length)

/-- Write to a file from a position on. -/
def write (t : FileTree) (file : FileId) (offset : Nat) (bytes : List UInt8) : FileTree :=
  match t.node? file with
  | some (.file old mode) => t.setNode file (.file (overwrite old offset bytes) mode)
  | _ => t

/-- Create something at a path that leads to nothing.  Only a directory may have a slash behind its
name. -/
def make (t : FileTree) (here : FileId) (path : Text) (node : FileId → Node) :
    Except IoError FileTree :=
  match t.slot here path with
  | .error e => .error e
  | .ok slot =>
    if !slot.isProper then .error (.system .alreadyExists)
    else if Utf8.size slot.name > nameLimit then .error (.system .nameTooLong)
    else if (t.entry? slot.directory slot.name).isSome then .error (.system .alreadyExists)
    else if !t.isAttached slot.directory || (slot.slash && !(node slot.directory).isDirectory) then
      .error (.system .noEntry)
    else .ok (t.create slot.directory slot.name (node slot.directory)).2

/-- Remove a directory, which must be empty. -/
def removeDirectory (t : FileTree) (here : FileId) (path : Text) : Except IoError FileTree :=
  match t.slot here path with
  | .error e => .error e
  | .ok slot =>
    if slot.name = ['.'] then .error (.system .invalidArgument)
    else if slot.name = ['.', '.'] then .error (.system .notEmpty)
    else if slot.name = [] then .error (.system .busy)
    else if Utf8.size slot.name > nameLimit then .error (.system .nameTooLong)
    else match t.entry? slot.directory slot.name with
      | none => .error (.system .noEntry)
      | some file =>
        if !t.isDirectory file then .error (.system .notDirectory)
        else if t.entries file != [] then .error (.system .notEmpty)
        else .ok (t.takeName slot.directory slot.name)

/-- Take away the name of something that is no directory. -/
def remove (t : FileTree) (here : FileId) (path : Text) : Except IoError FileTree :=
  match t.slot here path with
  | .error e => .error e
  | .ok slot =>
    if !slot.isProper then .error (.system .isDirectory)
    else if Utf8.size slot.name > nameLimit then .error (.system .nameTooLong)
    else match t.entry? slot.directory slot.name with
      | none => .error (.system .noEntry)
      | some file =>
        if t.isDirectory file then .error (.system .isDirectory)
        else if slot.slash then .error (.system .notDirectory)
        else .ok (t.takeName slot.directory slot.name)

/-- Give what one slot holds to another.  A directory that moves learns where it is. -/
def moveTo (t : FileTree) (source target : Slot) (file : FileId) : FileTree :=
  let t := (t.takeName source.directory source.name).giveName target.directory target.name file
  match t.node? file with
  | some (.directory _ entries) => t.setNode file (.directory target.directory entries)
  | _ => t

/-- May a file take the place of another one? -/
def checkReplace (t : FileTree) (file old : FileId) : Except IoError Unit :=
  if t.isDirectory file then
    if !t.isDirectory old then .error (.system .notDirectory)
    else if t.entries old != [] then .error (.system .notEmpty)
    else .ok ()
  else if t.isDirectory old then .error (.system .isDirectory)
  else .ok ()

/-- Move an entry to another path, where it takes the place of what is there. -/
def rename (t : FileTree) (here : FileId) (source target : Text) : Except IoError FileTree :=
  match t.slot here source, t.slot here target with
  | .error e, _ => .error e
  | _, .error e => .error e
  | .ok source, .ok target =>
    if !source.isProper || !target.isProper then .error (.system .busy)
    else match t.entry? source.directory source.name with
      | none => .error (.system .noEntry)
      | some file =>
        let old := t.entry? target.directory target.name
        if Utf8.size target.name > nameLimit then .error (.system .nameTooLong)
        else if !t.isDirectory file && (source.slash || target.slash) then
          .error (.system .notDirectory)
        else if t.isDirectory file && t.isWithin file (t.nodes.size + 1) target.directory then
          .error (.system .invalidArgument)
        else if !t.isAttached target.directory then .error (.system .noEntry)
        else match old with
          | none => .ok (t.moveTo source target file)
          | some old =>
            if old = file then .ok t
            else (t.checkReplace file old).map fun () => t.moveTo source target file

/-- Give a file one more name. -/
def link (t : FileTree) (here : FileId) (file : FileId) (path : Text) : Except IoError FileTree :=
  match t.slot here path with
  | .error e => .error e
  | .ok slot =>
    if !slot.isProper || (t.entry? slot.directory slot.name).isSome then
      .error (.system .alreadyExists)
    else if Utf8.size slot.name > nameLimit then .error (.system .nameTooLong)
    else if slot.slash || !t.isAttached slot.directory then .error (.system .noEntry)
    else if t.isDirectory file then .error (.system .notPermitted)
    else .ok (t.giveName slot.directory slot.name file)

/-- Change what may be done with a file. -/
def setMode (t : FileTree) (file : FileId) (mode : Nat) : FileTree :=
  match t.node? file with
  | some (.file contents _) => t.setNode file (.file contents mode)
  | _ => t

end Conch.FileTree
