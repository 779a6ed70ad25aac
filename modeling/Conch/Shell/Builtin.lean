import Conch.Usage

/-!
# Builtin commands

Three commands are run by the shell itself, because they concern the shell: changing its
directory, leaving it, and asking for the status of the last foreground command.
-/

namespace Conch

/-- A command that the shell runs itself: to change the working directory, to leave the shell, or to
tell how the last foreground command ended. -/
inductive Builtin where
  | changeDirectory
  | exit
  | status
  deriving DecidableEq, Repr

namespace Builtin

/-- All builtin commands. -/
def all : List Builtin :=
  [changeDirectory, exit, status]

/-- The name of a builtin command. -/
def name : Builtin → Word
  | changeDirectory => ['c', 'd']
  | exit => ['e', 'x', 'i', 't']
  | status => ['s', 't', 'a', 't', 'u', 's']

/-- The builtin command with a given name. -/
def ofName? (word : Word) : Option Builtin :=
  all.find? fun builtin => builtin.name == word

@[simp] theorem ofName?_name (b : Builtin) : ofName? b.name = some b := by
  cases b <;> decide

/-- The usage of the command that changes the directory: it takes one directory or none. -/
def directoryUsage : Usage where
  summary := "Usage:\n    cd [<dir>]"
  patterns := [{ positionals := [{ name := "<dir>", optional := true }] }]

end Builtin

end Conch
