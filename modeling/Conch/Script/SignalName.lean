import Conch.Text.Decimal

/-!
# Names of signals

A signal has a short name by which scripts refer to it, and a description by which the death of
a process is reported.  The real-time signals are named by their distance from the first and
the last of them.
-/

namespace Conch.SignalName

/-- The names of the signals, from zero on. -/
def names : List String :=
  ["EXIT", "HUP", "INT", "QUIT", "ILL", "TRAP", "ABRT", "BUS", "FPE", "KILL", "USR1", "SEGV",
    "USR2", "PIPE", "ALRM", "TERM", "STKFLT", "CHLD", "CONT", "STOP", "TSTP", "TTIN", "TTOU",
    "URG", "XCPU", "XFSZ", "VTALRM", "PROF", "WINCH", "IO", "PWR", "SYS", "32", "33", "RTMIN"] ++
  ((List.range 15).map fun k => s!"RTMIN+{k + 1}") ++
  ((List.range 14).map fun k => s!"RTMAX-{14 - k}") ++ ["RTMAX"]

/-- The descriptions of the signals, from one on. -/
def descriptions : List String :=
  ["Hangup", "Interrupt", "Quit", "Illegal instruction", "Trace/breakpoint trap", "Aborted",
    "Bus error", "Floating point exception", "Killed", "User defined signal 1",
    "Segmentation fault", "User defined signal 2", "Broken pipe", "Alarm clock", "Terminated",
    "Stack fault", "Child exited", "Continued", "Stopped (signal)", "Stopped",
    "Stopped (tty input)", "Stopped (tty output)", "Urgent I/O condition",
    "CPU time limit exceeded", "File size limit exceeded", "Virtual timer expired",
    "Profiling timer expired", "Window changed", "I/O possible", "Power failure",
    "Bad system call"]

/-- The first real-time signal. -/
def firstRealTime : Nat := 34

/-- The description of a signal. -/
def describe (signal : Nat) : Text :=
  match descriptions[signal - 1]? with
  | some text => text.toList
  | none =>
    if signal < firstRealTime then "Unknown signal ".toList ++ Text.decimal signal
    else "Real-time signal ".toList ++ Text.decimal (signal - firstRealTime)

/-- The signal that a word names, by its number or its name; `least` is the first that counts. -/
def number? (least : Nat) (word : Text) : Option Nat :=
  match Text.natural? word with
  | some n => if n < names.length then some n else none
  | none =>
    let upper := String.ofList (word.map Char.toUpper)
    (names.findIdx? (· == upper)).filter (least ≤ ·)

/-- The name of a signal. -/
def name (signal : Nat) : Text :=
  ((names[signal]?).getD "").toList

end Conch.SignalName
