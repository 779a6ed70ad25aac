import Conch.Files.Walk

/-!
# Files that can be run

A file that is to be run is a program of the system, or a script: its first line names the
program that reads it, which may be a script itself.  Only so many of these can read each
other, and only the beginning of a file is looked at.
-/

namespace Conch

/-- Who reads a script: the path of the program, and an argument it gets. -/
structure ScriptReader where
  path : Text
  argument : Option Text
  deriving DecidableEq, Repr

namespace ScriptReader

/-- How many bytes of a file are looked at. -/
def window : Nat := 256

/-- Does the character separate the parts of the first line? -/
def isGap (c : Char) : Bool :=
  c = ' ' || c = '\t'

/-- Does the character end the path? -/
def endsPath (c : Char) : Bool :=
  isGap c || c = '\x00'

/-- The first line of a file, after the two characters that say that it names a reader; none if the
line is cut off in the middle of the path. -/
def firstLine? (start : Text) : Option Text :=
  if start.contains '\n' then some (start.takeWhile (· != '\n'))
  else
    let padded := start ++ List.replicate (window - 2 - start.length) '\x00'
    if (padded.dropWhile isGap).any endsPath then some (padded.take (window - 3)) else none

/-- The reader that the first line of a file names. -/
def ofContents? (contents : List UInt8) : Option ScriptReader :=
  match Utf8.decodeLossy (contents.take window) with
  | '#' :: '!' :: start =>
    match firstLine? start with
    | none => none
    | some line =>
      let line := (line.reverse.dropWhile isGap).reverse.dropWhile isGap
      if line = [] then none
      else
        let rest := (line.dropWhile fun c => !endsPath c).dropWhile isGap
        let argument := rest.takeWhile (· != '\x00')
        some
          { path := line.takeWhile fun c => !endsPath c
            argument := if argument = [] then none else some argument }
  | _ => none

end ScriptReader

/-- What runs if a file is run: the name of the program, and the words it gets, the first of which
is the name it goes by. -/
structure Execution where
  program : Text
  words : List Text
  deriving DecidableEq, Repr

namespace FileTree

/-- How many scripts may read each other. -/
def readerLimit : Nat := 5

/-- What runs if the file at a path is run with words, through at most `readers` scripts. -/
def executionWithin (t : FileTree) (here : FileId) :
    (readers : Nat) → (path : Text) → List Text → Except Errno Execution
  | readers, path, words =>
    match t.find here path with
    | .error (.system errno) => .error errno
    | .error .nulInPath => .error .noEntry
    | .ok file =>
      match t.node? file with
      | some (.program name) => .ok ⟨name, words⟩
      | some (.file contents mode) =>
        if mode &&& Right.running.bit = 0 then .error .accessDenied
        else match ScriptReader.ofContents? contents, readers with
          | none, _ => .error .notExecutable
          | some _, 0 => .error .tooManyLinks
          | some reader, readers + 1 =>
            t.executionWithin here readers reader.path
              (reader.path :: reader.argument.toList ++ path :: words.drop 1)
      | _ => .error .accessDenied

/-- What runs if the file at a path is run with words. -/
def execution (t : FileTree) (here : FileId) (path : Text) (words : List Text) :
    Except Errno Execution :=
  t.executionWithin here readerLimit path words

end FileTree

end Conch
