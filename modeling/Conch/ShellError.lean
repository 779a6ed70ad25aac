import Conch.Command
import Conch.Errno

/-!
# Errors of the shell

Each error is the cause it arose from; `ShellError.message` puts it into words.  Faults of the
user (a malformed line, a builtin used wrongly, arguments that do not fit, too many jobs) are
recoverable: a shell that reads line after line reports them and goes on.  Any other error
ends it.
-/

namespace Conch

/-- Why the shell could not do what it was asked to.  Each reason carries what its report names: the
target of a redirection, the program that could not be run, the text of a usage, the limit that is
reached.  `io` is about requests that name a file or the current directory, and `system` about all
others. -/
inductive ShellError where
  | stated (text : String)
  | cannotOpen (path : Word) (direction : Direction) (reason : IoError)
  | cannotRun (program : Word) (reason : Errno)
  | io (reason : IoError)
  | system (reason : Errno)
  | usage (text : String)
  | malformed (fault : SyntaxFault)
  | builtin (text : String) (code : Int)
  | jobLimit (limit : Nat)
  | forkFailed
  | signalSetup (signal : String)
  deriving DecidableEq, Repr

namespace ShellError

/-- The word for the stream in the report of a failed redirection. -/
def purpose : Direction → String
  | .input => "input"
  | .output => "output"

/-- The error in words. -/
def message : ShellError → String
  | stated text => text
  | cannotOpen path direction reason =>
    s!"cannot open {String.ofList path} for {purpose direction}: {reason.message}"
  | cannotRun program reason => s!"{String.ofList program}: {reason.description}"
  | io reason => reason.message
  | system reason => s!"{reason.name}: {reason.description}"
  | usage text => text
  | malformed fault => s!"syntax error: {fault.message}"
  | builtin text _ => text
  | jobLimit limit => s!"too many background jobs (limit is {limit})"
  | forkFailed => "failed to create a new process"
  | signalSetup signal => s!"failed to install handler for {signal}"

/-- What kind of error it is, in words; errors of the system say only what they are about. -/
def description? : ShellError → Option String
  | malformed _ => some "syntax error"
  | builtin _ _ => some "builtin command error"
  | jobLimit _ => some "too many background jobs"
  | forkFailed => some "failed to create a new process"
  | signalSetup _ => some "failed to install signal handler"
  | io _ | system _ => none
  | e@(stated _) | e@(cannotOpen ..) | e@(cannotRun ..) | e@(usage _) => some e.message

/-- Does the shell go on after reporting the error? -/
def isRecoverable : ShellError → Bool
  | malformed _ | builtin _ _ | jobLimit _ | usage _ => true
  | stated _ | cannotOpen .. | cannotRun .. | io _ | system _ | forkFailed | signalSetup _ =>
    false

end ShellError

end Conch
