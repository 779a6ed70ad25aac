import Conch.Process.Execution
import Conch.Text.Quantity
import Conch.Tool.Format
import Conch.Tool.Options

/-!
# Programs that show values

These programs write their arguments or their variables, or wait for some time, or run another
program with other variables.
-/

namespace Conch.Tool

/-! ## Arguments -/

/-- A program that does nothing but leave with a code. -/
def leaveWith (code : Nat) (_ : Call) : Task Nat :=
  pure code

/-- The program `echo`. -/
def echo (call : Call) : Task Nat :=
  call.finishBytes (Format.echo call.arguments) 0

/-- Put one piece of a format out. -/
def putPiece (call : Call) : Format.Piece → Buffering Unit
  | .bytes bytes => Buffering.put bytes
  | .fault fault => call.reportLater (cited fault.argument ++ ": ".toList ++ fault.programText)
  | .ignored rest =>
    Buffering.reportBytes (Utf8.encode (call.name ++ ": warning: ".toList) ++ rest ++ Utf8.encode
      ": character(s) following character constant have been ignored\n".toList)

/-- What is wrong with a format. -/
def formatFaultText : Format.FormatFault → Text
  | .unknown directive | .incomplete directive =>
    directive ++ ": invalid conversion specification".toList
  | .noDigits => "missing hexadecimal number in escape".toList
  | .badSize isWidth argument =>
    (if isWidth then "invalid field width: " else "invalid precision: ").toList ++ cited argument

/-- The program `printf`. -/
def printf (call : Call) : Task Nat := do
  let arguments := if call.arguments.head? = some ['-', '-'] then call.arguments.drop 1
    else call.arguments
  match arguments with
  | [] => call.refuse "missing operand".toList 1
  | format :: rest =>
    let written := Format.programFlavor.printf format rest
    call.buffering do
      written.pieces.forM (putPiece call)
      match written.formatFault, written.rest with
      | some fault, _ => call.reportLater (formatFaultText fault)
      | none, extra :: _ =>
        unless written.stops do
          call.reportLater
            ("warning: ignoring excess arguments, starting with ".toList ++ cited extra)
      | none, [] => pure ()
      pure (if written.succeeded then 0 else 1)

/-! ## Variables -/

/-- A variable as it is shown. -/
def showVariable (ending : Char) (entry : Text × Text) : Text :=
  entry.1 ++ '=' :: entry.2 ++ [ending]

/-- The program `printenv`. -/
def printVariables (call : Call) : Task Nat :=
  call.withSettings [named '0' "null"] false 2 fun settings => do
    let ending := if settings.has '0' then '\x00' else '\n'
    if settings.operands = [] then
      call.finish (call.environment.flatMap (showVariable ending)) 0 2
    else
      let values := settings.operands.map fun name =>
        if name.contains '=' then none else call.environment.lookup name
      let text := values.flatMap fun value => match value with
        | some value => value ++ [ending]
        | none => []
      call.finish text (if values.all Option.isSome then 0 else 1) 2

/-- Read the variables that the arguments set; the arguments that are left name a program. -/
def readVariables : List (Text × Text) → List Text → List (Text × Text) × List Text
  | environment, [] => (environment, [])
  | environment, argument :: rest =>
    if argument = ['-'] || argument = ['-', 'i'] then readVariables [] rest
    else if argument.contains '=' then
      let name := argument.takeWhile (· != '=')
      let value := (argument.dropWhile (· != '=')).drop 1
      readVariables ((environment.filter fun entry => entry.1 != name) ++ [(name, value)]) rest
    else (environment, argument :: rest)

/-- The program `env`. -/
def withVariables (call : Call) : Task Nat := do
  let (environment, words) := readVariables call.environment call.arguments
  match words with
  | [] => call.finish (environment.flatMap (showVariable '\n')) 0 125
  | name :: _ =>
    let errno ← Task.become words environment
    call.reportFailure (cited name) (.system errno)
    pure (if errno = .noEntry then 127 else 126)

/-! ## Time -/

/-- Longer than anything lasts, in microseconds. -/
def foreverLong : Nat := Nat.pow 10 24

/-- A span of time in microseconds, by a number and perhaps a unit. -/
def interval? (text : Text) : Option Nat :=
  match Quantity.read? text with
  | none | some (_, .undefined, _) => none
  | some (isNegative, quantity, rest) =>
    let seconds? := match rest with
      | [] | ['s'] => some 1
      | ['m'] => some 60
      | ['h'] => some 3600
      | ['d'] => some 86400
      | _ => none
    let isZero := match quantity with
      | .fraction 0 _ => true
      | _ => false
    if isNegative && !isZero then none
    else seconds?.map fun seconds => match quantity with
      | .fraction numerator denominator =>
        min foreverLong ((numerator * seconds * Nat.pow 10 6 + denominator - 1) / denominator)
      | _ => foreverLong

/-- The program `sleep`. -/
def sleep (call : Call) : Task Nat :=
  call.withOptions [] fun settings => do
    let operands := settings.operands
    let refused := operands.filter fun operand => (interval? operand).isNone
    if call.arguments = [] then call.refuse "missing operand".toList 1
    else if refused != [] then
      refused.dropLast.forM fun operand =>
        call.report ("invalid time interval ".toList ++ cited operand)
      call.refuse ("invalid time interval ".toList ++ cited (refused.getLast?.getD [])) 1
    else
      let view ← Task.look
      Task.ask (.sleepUntil (view.clock + (operands.filterMap interval?).foldr (· + ·) 0))
      pure 0

end Conch.Tool
