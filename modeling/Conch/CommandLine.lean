import Conch.Shell.Serve
import Conch.Text.Decimal

/-!
# The command line of the shell

The arguments say where the commands come from: one line (`-c`), a file, or standard input.
Arguments that do not fit end the program before it does anything; asked for help, it shows
its usage and ends as well.  In all other cases the log is opened first.
-/

namespace Conch

/-- Where the commands come from, or what else is asked for: the version is to be shown, or a line,
the lines of a file or those of standard input are to be executed.  A line to be executed may also
be missing. -/
inductive CommandSource where
  | version
  | line (text : Text)
  | file (path : Text)
  | standardInput
  | missingLine
  deriving DecidableEq, Repr

/-- What the arguments ask for, with the path of the log, if one is given, and the number of
background jobs that may be tracked at once. -/
structure Invocation where
  log : Option Text
  maxJobs : Nat
  source : CommandSource
  deriving DecidableEq, Repr

namespace CommandLine

/-- Show the usage. -/
def helpFlag : Flag := { names := [.short 'h', .long "help".toList] }

/-- Show the version. -/
def versionFlag : Flag := { names := [.long "version".toList] }

/-- Execute the line that is given. -/
def lineFlag : Flag := { names := [.short 'c'] }

/-- Where to write the log. -/
def logFlag : Flag := { names := [.long "log".toList], takesValue := true }

/-- How many background jobs may be tracked at once. -/
def maxJobsFlag : Flag := { names := [.long "max-jobs".toList], takesValue := true }

/-- The positional that holds a line. -/
def linePositional : Positional := { name := "<command>" }

/-- The positional that names a file. -/
def filePositional : Positional := { name := "<file>" }

/-- The patterns, as they are shown to the user. -/
def patternText : String :=
  "Usage:\n" ++
  "    tinysh [options]\n" ++
  "    tinysh [options] -c <command>\n" ++
  "    tinysh [options] <file>\n" ++
  "    tinysh (-h | --help)\n" ++
  "    tinysh --version"

/-- The options, as they are shown to the user. -/
def optionText : String :=
  "Options:\n" ++
  "    -h --help           Show this screen.\n" ++
  "    --version           Show version.\n" ++
  "    -c                  If the -c option is present, then commands are read from the first\n" ++
  "                            non-option argument command_string.\n" ++
  "    --log=<path>        File to write log to, defaults to ~/.tinysh_log\n" ++
  "    --max-jobs=<n>      Maximum number of background jobs tracked at once [default: 200]."

/-- What is shown to a user who asks for help. -/
def helpText : String :=
  s!"tinysh.\n\n{patternText}\n\n{optionText}\n"

/-- What is shown to a user who asks for the version. -/
def versionText : String := "tinysh version 0.1.0\n"

/-- The usage of the program. -/
def usage : Usage where
  summary := patternText
  flags := [helpFlag, versionFlag, lineFlag, logFlag, maxJobsFlag]
  patterns := [
    { anyFlags := true },
    { required := [lineFlag], anyFlags := true, positionals := [linePositional] },
    { anyFlags := true, positionals := [filePositional] },
    { required := [helpFlag] },
    { required := [versionFlag] }]

/-- The largest number that can be given. -/
def numberLimit : Nat := Nat.pow 2 64 - 1

/-- A number on the command line: digits, perhaps after a plus sign; a blank text is zero. -/
def number? (text : Text) : Option Nat :=
  if Text.trim text = [] then some 0
  else
    let digits := match text with
      | '+' :: digits => digits
      | digits => digits
    (Text.natural? digits).filter (· ≤ numberLimit)

/-- How many background jobs may be tracked, if nothing is said about it. -/
def defaultMaxJobs : Nat := ({} : Config).jobCapacity

/-- How many background jobs may be tracked, by the arguments. -/
def maxJobs (matched : Matched) : Except String Nat :=
  match matched.value? maxJobsFlag with
  | none => .ok defaultMaxJobs
  | some text =>
    match number? text with
    | some n => .ok n
    | none =>
      .error s!"Could not deserialize '{String.ofList text}' to u64 for '--max-jobs'."

/-- Where the commands come from, by the arguments. -/
def sourceOf (matched : Matched) : CommandSource :=
  if matched.has versionFlag then .version
  else match matched.positional? linePositional.name, matched.positional? filePositional.name with
    | some text, _ => .line text
    | none, some path => .file path
    | none, none => if matched.has lineFlag then .missingLine else .standardInput

/-- What the arguments of the program come to: the user asks for help, or they do not fit, or they
ask for something. -/
inductive Reading where
  | help
  | refused (message : String)
  | accepted (invocation : Invocation)
  deriving DecidableEq, Repr

/-- Read the arguments of the program. -/
def read (arguments : List Text) : Reading :=
  match usage.fit arguments with
  | .error fault => .refused (usage.report fault)
  | .ok matched =>
    if matched.has helpFlag then .help
    else match maxJobs matched with
      | .error message => .refused message
      | .ok maxJobs =>
        .accepted { log := matched.value? logFlag, maxJobs, source := sourceOf matched }

variable {σ : Type} (H : Host σ)

/-- The exit code of a program that could not do what it was asked to. -/
def failureCode : Int := 1

/-- The name of the log in the home directory. -/
def logName : Text := ".tinysh_log".toList

/-- Open the log; a shell without a log works all the same, but says so. -/
def openLog (given : Option Text) (world : σ) : σ :=
  match given.or ((H.home world).map fun home => Path.join home logName) with
  | none =>
    H.printError s!"{Shell.reportName}: unable to find home directory, logging disabled\n" world
  | some path =>
    match H.openLog path world with
    | .ok world => world
    | .error reason =>
      H.printError
        s!"{Shell.reportName}: unable to open log file {String.ofList path}: {reason.message}\n"
        world

/-- Do what a shell is asked to, and end it: an error that comes through is reported and gives the
exit code of failure, else the exit code is that of the last foreground command. -/
def conclude (action : Shell.Act σ Unit) : Shell.Act σ Unit :=
  tryCatch (do action; Shell.leave H none) fun
    | .failed e => do
      Shell.report H e
      Shell.leave H (some failureCode)
    | .ended ending => Shell.finish ending

/-- What a shell does. -/
def perform : CommandSource → Shell.Act σ Unit
  | .version => do
    Shell.print H versionText
    Shell.finish (.exited 0)
  | .line text => conclude H (Shell.execute H text)
  | .file path => conclude H (Shell.executeFile H path)
  | .standardInput => conclude H (Shell.executeStandardInput H)
  | .missingLine => Shell.finish .crashed

/-- How a shell ends, and the world it leaves behind. -/
def outcome (action : Shell.Act σ Unit) (sh : Shell σ) : Ending × σ :=
  match action.run sh with
  | .ok () sh => (.exited 0, sh.world)
  | .error (.ended ending) sh => (ending, sh.world)
  | .error (.failed _) sh => (.exited failureCode, sh.world)

/-- Run the program; `terminal` says whether somebody types its standard input. -/
def run (terminal : Bool) (pid : UInt32) (signals : SignalState) (arguments : List Text)
    (world : σ) : Ending × σ :=
  match read arguments with
  | .help => (.exited 0, H.print helpText world)
  | .refused message => (.exited failureCode, H.printError (message ++ "\n") world)
  | .accepted invocation =>
    let config : Config :=
      { interactive := terminal && invocation.source == .standardInput
        jobCapacity := invocation.maxJobs }
    outcome (perform H invocation.source)
      (.fresh config pid signals (openLog H invocation.log world))

end CommandLine

end Conch
