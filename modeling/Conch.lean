import Conch.CommandLine
import Conch.Files.Redirection
import Conch.Machine.Host
import Conch.Main
import Conch.Proofs.Command.Grammar
import Conch.Proofs.Command.Scan
import Conch.Proofs.Delivery
import Conch.Proofs.Invocation
import Conch.Proofs.Jobs.Sweep
import Conch.Proofs.Jobs.Children
import Conch.Proofs.Jobs.Announcement
import Conch.Proofs.Jobs.Ledger
import Conch.Proofs.Jobs.Registration
import Conch.Proofs.Shell.Foreground
import Conch.Proofs.Shell.Recording
import Conch.Proofs.Shell.Refusal
import Conch.Proofs.Shell.Steady
import Conch.Proofs.Shell.Mode
import Conch.Proofs.Shell.Survival
import Conch.Proofs.Signals.Guards
import Conch.Proofs.Signals.Nesting
import Conch.Proofs.Signals.Swap
import Conch.Proofs.Command.Verbatim
import Conch.Proofs.Shell.Outcome
import Conch.Proofs.Shell.Session
import Conch.Proofs.Shell.Status
import Conch.Proofs.Shell.Kernel
import Conch.Proofs.Shell.ChildTracking
import Conch.Proofs.Shell.Ownership
import Conch.Proofs.Shell.Directory
import Conch.Proofs.Shell.Balance
import Conch.Proofs.Shell.ScriptFile
import Conch.Proofs.Shell.ExitRule
import Conch.Proofs.Shell.Termination
import Conch.Proofs.Shell.Leaving
import Conch.Proofs.Command.Runs
import Conch.Proofs.ReadAhead
import Conch.Proofs.LineDecoding
import Conch.Proofs.Files.Naming
import Conch.Proofs.Shell.DirectoryVariables
import Conch.Proofs.Files.Growth
import Conch.Proofs.Files.Following
import Conch.Proofs.Files.Targets
import Conch.Proofs.Machine.Opening
import Conch.Proofs.Machine.Waiting
import Conch.Proofs.Machine.Wariness
import Conch.Proofs.Machine.ChildTargets
import Conch.Proofs.Machine.ChildFailure
import Conch.Proofs.Shell.FailedTargets
