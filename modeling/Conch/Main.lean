import Conch.CommandLine
import Conch.Machine.Host

/-!
# The program

The shell runs on a machine of its own, which gets the standard input of the program and the
files that the arguments name; what is written there is shown, and the shell's exit code is
that of the program.
-/

namespace Conch.Program

/-- All bytes that can be read from a stream, after those that have been. -/
partial def readBytes (stream : IO.FS.Stream) (before : ByteArray) : IO ByteArray := do
  let chunk ← stream.read (USize.ofNat ReadAnswer.chunkSize)
  if chunk.isEmpty then pure before else readBytes stream (before ++ chunk)

/-- The directory in which the shell starts. -/
def directory : Text := "/home".toList

/-- Put a file on the machine, if there is one by that name. -/
def addFile (m : Machine) (path : String) : IO Machine := do
  try
    let bytes ← IO.FS.readBinFile path
    let names := Path.properNames (Path.join directory path.toList)
    pure { m with files := m.files.plant names (.file bytes.toList 0o644) }
  catch _ => pure m

/-- The process id of the shell. -/
def pid : UInt32 := 1000

/-- The exit code of the program for the ending of the shell. -/
def exitCode : Ending → UInt32
  | .exited code => UInt32.ofNat (code % 256).toNat
  | .killed signal => UInt32.ofNat (Completion.codeOfSignal signal).toNat
  | .crashed => 101
  | .stuck => 1

/-- Write what a stream of the machine has taken. -/
def writeOut (stream : IO.FS.Stream) (bytes : List UInt8) : IO Unit := do
  stream.write ⟨bytes.toArray⟩
  stream.flush

/-- Run the program. -/
def run (arguments : List String) : IO UInt32 := do
  let input ← readBytes (← IO.getStdin) .empty
  let m := (Machine.fresh pid directory).withInput input.toList
  let m ← arguments.foldlM addFile m
  let (ending, m) := CommandLine.run Machine.host false pid {} (arguments.map String.toList) m
  writeOut (← IO.getStdout) m.output
  writeOut (← IO.getStderr) m.errors
  pure (exitCode ending)

end Conch.Program

/-- Run the shell by its command line. -/
def main (arguments : List String) : IO UInt32 :=
  Conch.Program.run arguments
