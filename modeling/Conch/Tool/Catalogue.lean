import Conch.Files.Executable
import Conch.Script.Start
import Conch.Tool.Streams
import Conch.Tool.Values

/-!
# The programs of the system

Every program has a name, under which the files of the system know it, and a routine.
-/

namespace Conch.Tool

/-- The programs that do their work by themselves. -/
def programs : List (String × (Call → Task Nat)) :=
  [("[", test), ("cat", cat), ("chmod", changeModes), ("cp", copy), ("echo", echo),
    ("env", withVariables), ("false", leaveWith 1), ("grep", grep), ("head", head),
    ("ln", link), ("ls", list), ("mkdir", makeDirectories), ("mkfifo", makePipes),
    ("mv", move), ("printenv", printVariables), ("printf", printf),
    ("pwd", workingDirectory), ("rm", remove), ("rmdir", removeDirectories),
    ("sleep", sleep), ("tail", tail), ("tee", tee), ("test", test), ("touch", touch),
    ("true", leaveWith 0), ("wc", wordCount)]

/-- The program that runs scripts. -/
def scriptProgram : String := "sh"

/-- The names of all programs. -/
def names : List String :=
  scriptProgram :: programs.map Prod.fst

/-- The exit code where there is nothing to run. -/
def missingCode : Nat := 127

/-- What a process does that runs a program. -/
def routineOf (execution : Execution) (environment : List (Text × Text)) : Routine :=
  if execution.program = scriptProgram.toList then Script.routine execution.words environment
  else match programs.find? fun entry => entry.1.toList == execution.program with
    | none => .done missingCode
    | some (name, work) =>
      Task.routine (work
        { program := name.toList
          name := execution.words.headD []
          arguments := execution.words.drop 1
          environment })

end Conch.Tool
