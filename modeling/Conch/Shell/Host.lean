import Conch.Command
import Conch.LineReader
import Conch.Process.Completion
import Conch.Signal

/-!
# The system under a shell

A shell does all its work on the outside world through a few services.  A `Host σ` provides
them over worlds of type `σ`: services that only look are functions of the world, and the
others say what the world is afterwards.  Nothing is assumed of a host, so whatever is proved
of a shell holds on all of them; `Machine.host` is one that can be run.
-/

namespace Conch

/-- A stream of bytes that the shell reads its lines from: the answers that reads would get from
here on, after which the stream ends; the world after so many reads; and a number of reads beyond
which there can be no answer. -/
structure InputStream (σ : Type) where
  answers : σ → List ReadAnswer
  advance : Nat → σ → σ
  bound : σ → Nat

/-- What a new process needs to know: the command it is to become, and the control signals of the
shell when the process was created, which it inherits. -/
structure Launch where
  command : Command
  signals : SignalState
  deriving DecidableEq, Repr

/-- The services that a shell needs, over worlds of type `σ`.

`arrivals` tells the numbers of the signals that have been sent to the shell since this was last
asked.  `wait` gives the answers to successive requests about a child, up to the one that says how
it ended, while `poll` asks without waiting.  `terminate` sends the terminate signal to a process,
and `terminateGroup` to the process group of the shell.  `exportDirectories` tells the children from
which directory the shell came and to which one it went.  `openLines` opens a file to read lines
from, and `openLog` one to write a log to. -/
structure Host (σ : Type) where
  print : String → σ → σ
  printError : String → σ → σ
  arrivals : σ → List Int × σ
  fork : Launch → σ → Option ProcessId × σ
  wait : ProcessId → σ → List WaitAnswer × σ
  poll : ProcessId → σ → WaitAnswer × σ
  terminate : ProcessId → σ → Option Errno × σ
  terminateGroup : σ → σ
  workingDirectory : σ → Except IoError Text
  home : σ → Option Text
  changeDirectory : Text → σ → Except IoError σ
  exportDirectories : (previous current : Text) → σ → σ
  standardInput : InputStream σ
  openLines : Text → σ → Except IoError (InputStream σ × σ)
  openLog : Text → σ → Except IoError σ

end Conch
