import Conch.Process.Routine
import Conch.Tool.Quotation

/-!
# What the programs have in common

A program gets words, of which the first is its name, and variables.  It reports what goes wrong
on standard error, under its name, and goes on with what is left to do; its exit code tells
whether something went wrong.
-/

namespace Conch.Tool

/-- How a program was called: the program, the name it goes by, the words after it, and the
variables. -/
structure Call where
  program : Text
  name : Text
  arguments : List Text
  environment : List (Text × Text)

/-- Words with blanks between them. -/
def spaced (words : List Text) : Text :=
  [' '].intercalate words

/-- The lines of a text. -/
def lines : Text → List Text
  | [] => []
  | c :: rest =>
    if c = '\n' then [] :: lines rest
    else match lines rest with
      | [] => [[c]]
      | line :: others => (c :: line) :: others

/-! ## Reports -/

/-- Why a request failed, in the words of the system. -/
def reason : IoError → Text
  | .system errno => errno.message.toList
  | e@.nulInPath => e.message.toList

namespace Call

/-- What is reported, under the name of the program. -/
def reportText (call : Call) (text : Text) : Text :=
  call.name ++ ": ".toList ++ text ++ ['\n']

/-- Report something. -/
def report (call : Call) (text : Text) : Task Unit :=
  Task.write Task.errors (call.reportText text)

/-- Report a request that failed. -/
def reportFailure (call : Call) (what : Text) (e : IoError) : Task Unit :=
  call.report (what ++ ": ".toList ++ reason e)

/-- Refuse to work, and point to the help. -/
def refuse (call : Call) (text : Text) (code : Nat) : Task Nat := do
  call.report text
  Task.write Task.errors
    ("Try '".toList ++ call.name ++ " --help' for more information.\n".toList)
  pure code

/-- The value of a variable. -/
def valueOf? (call : Call) (name : String) : Option Text :=
  call.environment.lookup name.toList

end Call

/-! ## Work on all operands -/

/-- Do something with each of some things; the exit code tells whether one failed. -/
def forEach {α : Type} (action : α → Task Bool) : List α → Task Nat
  | [] => pure 0
  | a :: rest => do
    let succeeded ← action a
    let code ← forEach action rest
    pure (if succeeded then code else 1)

/-- Change the files, and report a failure. -/
def Call.change (call : Call) (what : Text) (alter : View → Except IoError FileTree) :
    Task Bool := do
  match ← Task.change alter with
  | .ok () => pure true
  | .error e =>
    call.reportFailure what e
    pure false

/-- Write bytes to standard output, and be done.  If that fails, it is reported, and the exit code
is `failure`. -/
def Call.finishBytes (call : Call) (bytes : List UInt8) (code : Nat) (failure : Nat := 1) :
    Task Nat := do
  if bytes = [] then pure code
  else match ← Task.ask (.write Task.output bytes) with
    | .ok () => pure code
    | .error errno =>
      call.reportFailure "write error".toList (.system errno)
      pure failure

/-- Write text to standard output, and be done. -/
def Call.finish (call : Call) (text : Text) (code : Nat) (failure : Nat := 1) : Task Nat :=
  call.finishBytes (Utf8.encode text) code failure

/-- Does a descriptor refer to nothing? -/
def isClosed (descriptor : Nat) : Task Bool := do
  pure ((← Task.look).endpoints descriptor).isNone

/-- Be done with operands one of which may have been standard input.  It is closed then, and if it
has been closed before that is reported as `what`. -/
def Call.finishInputs (call : Call) (operands : List Text) (what : Text) (code : Nat) :
    Task Nat := do
  if operands.contains ['-'] && (← isClosed Task.input) then
    call.reportFailure what (.system .badDescriptor)
    pure 1
  else pure code

/-- Everything that can be read from a descriptor. -/
def readAll (descriptor : Nat) : (fuel : Nat) → Task (Except Errno (List UInt8))
  | 0 => pure (.ok [])
  | fuel + 1 => do
    match ← Task.ask (.read descriptor 65536) with
    | .error errno => pure (.error errno)
    | .ok [] => pure (.ok [])
    | .ok bytes =>
      match ← readAll descriptor fuel with
      | .error errno => pure (.error errno)
      | .ok more => pure (.ok (bytes ++ more))

/-- Do something with the descriptor of an operand: a dash is standard input.  If it cannot be
opened, something else is done instead. -/
def Call.withInput {m : Type → Type} [Monad m] [MonadLiftT Task m] {α : Type} (operand : Text)
    (instead : IoError → m α) (action : Nat → m α) : m α := do
  if operand = ['-'] then action Task.input
  else match ← liftM (Task.openFile operand .read Task.usualMode) with
    | .error e => instead e
    | .ok descriptor =>
      let result ← action descriptor
      liftM (Task.ask (.close descriptor))
      pure result

/-! ## Output that is kept back -/

/-- What a program has not written yet, whether bytes were lost because they could not be written,
and whether a report could not be. -/
structure Pending where
  bytes : List UInt8 := []
  isLost : Bool := false
  isUnreported : Bool := false
  deriving DecidableEq, Repr

/-- What a program does that keeps its output back until it has something to report. -/
abbrev Buffering (α : Type) := StateT Pending Task α

namespace Buffering

/-- Write bytes, later. -/
def put (bytes : List UInt8) : Buffering Unit :=
  modify fun p => { p with bytes := p.bytes ++ bytes }

/-- Write what is kept back. -/
def flush : Buffering Unit := do
  let p ← get
  if p.bytes != [] then
    let written ← liftM (Task.ask (.write Task.output p.bytes))
    set { p with bytes := [], isLost := p.isLost || !written.isOk }

/-- Report bytes, after what is kept back. -/
def reportBytes (bytes : List UInt8) : Buffering Unit := do
  flush
  let written ← liftM (Task.ask (.write Task.errors bytes))
  modify fun p => { p with isUnreported := p.isUnreported || !written.isOk }

end Buffering

namespace Call

/-- Report something, after what is kept back. -/
def reportLater (call : Call) (text : Text) : Buffering Unit :=
  Buffering.reportBytes (Utf8.encode (call.reportText text))

/-- Report a request that failed, after what is kept back. -/
def reportFailureLater (call : Call) (what : Text) (e : IoError) : Buffering Unit :=
  call.reportLater (what ++ ": ".toList ++ reason e)

/-- Do something whose output is kept back, and write it when that is done.  If something could not
be written it is reported, and the exit code is another one. -/
def buffering (call : Call) (action : Buffering Nat) : Task Nat := do
  let (code, p) ← action {}
  if p.bytes = [] && p.isLost then
    if ← isClosed Task.output then
      call.reportFailure "write error".toList (.system .badDescriptor)
    else call.report "write error".toList
    pure 1
  else
    let code ← call.finishBytes p.bytes code
    pure (if p.isUnreported then 1 else code)

end Call

end Conch.Tool
