import Conch.Machine.Host
import Conch.Proofs.Shell.Outcome

/-!
# Changing the directory

The command that changes the directory goes through, or it is turned down, and the shell goes on in
both cases.  There is one other way to fail, and it has nothing to do with where the command leads:
whoever asks for another directory is first asked where he is, and a shell whose working directory
has been removed does not know (`spares_iff`).

So a shell that has lost its directory cannot even be told to go to the root, although an absolute
path needs no working directory to start from (`runChangeDirectory_of_isAbsolute`), and the service
of a stream ends with the attempt.
-/

namespace Conch.Shell

variable {σ : Type}

/-! ## What is asked for -/

/-- The directory that the arguments ask for, which is the home directory if they name none; nothing
if they are no good. -/
def asked? (arguments : List Word) : Option (Option Text) :=
  if 1 < arguments.length then none
  else
    match Builtin.directoryUsage.fit arguments with
    | .error _ => none
    | .ok matched => some (matched.positional? "<dir>")

/-- An absolute path is no flag, whatever else is in it. -/
theorem asked?_of_isAbsolute {path : Word} (habsolute : Path.isAbsolute path = true) :
    asked? [path] = some (some path) := by
  obtain _ | ⟨c, rest⟩ := path
  · exact nomatch habsolute
  obtain rfl : c = Path.separator := by simpa [Path.isAbsolute] using habsolute
  rfl

variable (H : Host σ) {arguments : List Word} {given : Option Text} {sh : Shell σ}

/-- Arguments that are no good are a reason to turn the command down. -/
theorem refusal_of_asked?_eq_none (world : σ) (hasked : asked? arguments = none) :
    ∃ e, DirectoryRefusal H arguments world e := by
  by_cases hmany : 1 < arguments.length
  · exact ⟨_, .tooMany hmany⟩
  cases hfit : Builtin.directoryUsage.fit arguments with
  | error fault => exact ⟨_, .misused hmany hfit⟩
  | ok matched =>
      rw [asked?, if_neg hmany, hfit] at hasked
      exact nomatch hasked

/-! ## What becomes of it -/

/-- Where the shell is comes first, and only then where it is to go. -/
theorem runChangeDirectory_of_asked (hasked : asked? arguments = some given) :
    runChangeDirectory H arguments sh =
      match H.workingDirectory sh.world with
      | .error reason => .error (.failed (.io reason)) sh
      | .ok here =>
        match directoryTarget given here (H.home sh.world) with
        | none => .error (.failed (.builtin "cd: HOME not set" 1)) sh
        | some target =>
          match H.changeDirectory target sh.world with
          | .error reason =>
            .error (.failed (.builtin s!"cd: {String.ofList target}: {reason.message}" 1)) sh
          | .ok world => .ok () { sh with world := H.exportDirectories here target world } := by
  have hlook : (get : Act σ (Shell σ)) sh = .ok sh sh := rfl
  by_cases hmany : 1 < arguments.length
  · rw [asked?, if_pos hmany] at hasked
    exact nomatch hasked
  rw [asked?, if_neg hmany] at hasked
  rw [runChangeDirectory, if_neg hmany]
  cases hfit : Builtin.directoryUsage.fit arguments with
  | error fault =>
      rw [hfit] at hasked
      exact nomatch hasked
  | ok matched =>
      rw [hfit] at hasked
      obtain rfl : matched.positional? "<dir>" = given := Option.some.inj hasked
      dsimp only
      rw [bind_of_ok hlook]
      cases H.workingDirectory sh.world with
      | error reason => rfl
      | ok here =>
          dsimp only
          cases directoryTarget (matched.positional? "<dir>") here (H.home sh.world) with
          | none => rfl
          | some target =>
              dsimp only
              cases H.changeDirectory target sh.world with
              | error reason => rfl
              | ok world => rfl

/-- The command goes through, or it is turned down. -/
def Spares (arguments : List Word) (sh : Shell σ) : Prop :=
  (∃ moved, runChangeDirectory H arguments sh = .ok () moved) ∨
    ∃ e, TurnsDown (runChangeDirectory H arguments) sh e sh

/-- A shell that does not know where it is fails for good. -/
theorem runChangeDirectory_of_lost {reason : IoError} (hasked : asked? arguments ≠ none)
    (hlost : H.workingDirectory sh.world = .error reason) :
    runChangeDirectory H arguments sh = .error (.failed (.io reason)) sh := by
  obtain ⟨given, hgiven⟩ := Option.ne_none_iff_exists'.mp hasked
  rw [runChangeDirectory_of_asked H hgiven, hlost]

/-- **Only those who have lost their directory fail for good**: a change of the directory can be
mended, or goes through, exactly if none is asked for or the shell knows where it is. -/
theorem spares_iff : Spares H arguments sh ↔
    asked? arguments = none ∨ ∃ here, H.workingDirectory sh.world = .ok here := by
  cases hasked : asked? arguments with
  | none =>
      obtain ⟨e, hreason⟩ := refusal_of_asked?_eq_none H sh.world hasked
      have hdown := (turnsDown_runChangeDirectory_iff H).mpr ⟨hreason, rfl⟩
      exact iff_of_true (.inr ⟨e, hdown⟩) (.inl rfl)
  | some given =>
      simp only [Spares, TurnsDown, runChangeDirectory_of_asked H hasked]
      cases H.workingDirectory sh.world with
      | error reason =>
          -- Where to go makes no difference, since the shell asks first where it is.
          refine iff_of_false ?_ ?_
          · rintro (⟨moved, hmoved⟩ | ⟨e, hdown, hmended⟩)
            · cases hmoved
            · obtain ⟨⟨⟩, -⟩ := EStateM.Result.error.inj hdown
              cases hmended
          · rintro (hnone | ⟨here, hok⟩)
            · cases hnone
            · cases hok
      | ok here =>
          refine iff_of_true ?_ (.inr ⟨here, rfl⟩)
          dsimp only
          cases directoryTarget given here (H.home sh.world) with
          | none => exact .inr ⟨_, rfl, rfl⟩
          | some target =>
              dsimp only
              cases H.changeDirectory target sh.world with
              | error reason => exact .inr ⟨_, rfl, rfl⟩
              | ok world => exact .inl ⟨_, rfl⟩

/-- An absolute path says all about where to go, but the shell asks where it is all the same. -/
theorem runChangeDirectory_of_isAbsolute {path : Word} {world : σ}
    (habsolute : Path.isAbsolute path = true)
    (hmove : H.changeDirectory path sh.world = .ok world) :
    runChangeDirectory H [path] sh =
      match H.workingDirectory sh.world with
      | .error reason => .error (.failed (.io reason)) sh
      | .ok here => .ok () { sh with world := H.exportDirectories here path world } := by
  rw [runChangeDirectory_of_asked H (asked?_of_isAbsolute habsolute)]
  cases H.workingDirectory sh.world with
  | error reason => rfl
  | ok here =>
      have htarget : directoryTarget (some path) here (H.home sh.world) = some path :=
        congrArg some (if_pos habsolute)
      dsimp only
      rw [htarget]
      dsimp only
      rw [hmove]

/-! ## What becomes of the service -/

section Service

variable (input : InputStream σ) (prompt : Option String)

/-- The next line of a stream is read, and the shell is left as `sh` to do something with it. -/
def Reaches (reader : LineReader) (before : Shell σ) (line : Text) (reader' : LineReader)
    (sh : Shell σ) : Prop :=
  ∃ mid, attempt H input prompt reader before = .ok (.line line, reader') mid ∧
    pollSignals H mid = .ok () sh

variable {reader reader' : LineReader} {before : Shell σ} {line : Text}

/-- What is done with a line is done before the next line is read. -/
theorem serve_of_reaches (perform : Text → Act σ Unit) (fuel : Nat)
    (hline : Reaches H input prompt reader before line reader' sh) :
    serve H input prompt perform (fuel + 1) reader before =
      (do reporting H (perform line); serve H input prompt perform fuel reader') sh := by
  obtain ⟨mid, hattempt, hpoll⟩ := hline
  rw [serve_succ, bind_of_ok hattempt, answerOutcome, bind_of_ok hpoll]

/-- What the shell does with a line that changes the directory. -/
theorem reporting_change {command : Command} (hparse : reading line sh = .ok (some command))
    (hname : Builtin.ofName? command.program = some .changeDirectory) :
    reporting H (execute H line) sh =
      match runChangeDirectory H command.arguments sh with
      | .ok () moved => .ok () { moved with world := H.print "" moved.world }
      | .error (.failed e) sh' => (if e.isRecoverable then report H e else fail e) sh'
      | .error (.ended ending) sh' => .error (.ended ending) sh' := by
  have hexecute : execute H line sh =
      (do runChangeDirectory H command.arguments; print H "") sh := by
    rw [execute_eq_run H hparse, run_changeDirectory H hname]
  rcases hrun : runChangeDirectory H command.arguments sh with ⟨⟨⟩, moved⟩ | ⟨e | ending, sh'⟩
  · rw [bind_of_ok hrun] at hexecute
    exact reporting_of_ok H hexecute
  · rw [bind_of_error hrun] at hexecute
    exact reporting_of_failed H hexecute
  · rw [bind_of_error hrun] at hexecute
    exact tryCatch_of_error hexecute

end Service

/-- **A change of the directory ends nobody who knows where he is.**  The command goes through or is
turned down, and the next line is read after it, if and only if its arguments are no good or the
path of the working directory can be had, whatever may be wrong with the directory it leads to.
Else the shell fails for good, even if the path is absolute and leads to a directory. -/
theorem directory_change_survived_iff :
    (∀ (arguments : List Word) (sh : Shell σ), Spares H arguments sh ↔
      asked? arguments = none ∨ ∃ here, H.workingDirectory sh.world = .ok here) ∧
    (∀ (arguments : List Word) (sh : Shell σ), ¬ Spares H arguments sh →
      ∃ reason, H.workingDirectory sh.world = .error reason ∧
        runChangeDirectory H arguments sh = .error (.failed (.io reason)) sh ∧
        (ShellError.io reason).isRecoverable = false) ∧
    (∀ (input : InputStream σ) (prompt : Option String) (fuel : Nat) (reader reader' : LineReader)
        (before sh : Shell σ) (line : Text) (command : Command),
      Reaches H input prompt reader before line reader' sh →
      reading line sh = .ok (some command) →
      Builtin.ofName? command.program = some .changeDirectory →
      (∀ moved, runChangeDirectory H command.arguments sh = .ok () moved →
        serve H input prompt (execute H) (fuel + 1) reader before =
          serve H input prompt (execute H) fuel reader' { moved with
            world := H.print "" moved.world }) ∧
      (∀ e, TurnsDown (runChangeDirectory H command.arguments) sh e sh →
        serve H input prompt (execute H) (fuel + 1) reader before =
          serve H input prompt (execute H) fuel reader' { sh with
            world := H.printError s!"{reportName}: {e.message}\n" sh.world }) ∧
      (∀ reason, runChangeDirectory H command.arguments sh = .error (.failed (.io reason)) sh →
        serve H input prompt (execute H) (fuel + 1) reader before =
          .error (.failed (.io reason)) sh)) ∧
    ∀ (path : Word) (sh : Shell σ) (world : σ), Path.isAbsolute path = true →
      H.changeDirectory path sh.world = .ok world →
      runChangeDirectory H [path] sh =
        match H.workingDirectory sh.world with
        | .error reason => .error (.failed (.io reason)) sh
        | .ok here => .ok () { sh with world := H.exportDirectories here path world } := by
  refine ⟨fun _ _ => spares_iff H, fun arguments sh hlost => ?_, ?_,
    fun path sh world => runChangeDirectory_of_isAbsolute H⟩
  · rw [spares_iff, not_or] at hlost
    obtain ⟨hgood, hnowhere⟩ := hlost
    cases hhere : H.workingDirectory sh.world with
    | ok here => exact absurd ⟨here, hhere⟩ hnowhere
    | error reason => exact ⟨reason, rfl, runChangeDirectory_of_lost H hgood hhere, rfl⟩
  · intro input prompt fuel reader reader' before sh line command hline hparse hname
    have hreporting := reporting_change H hparse hname
    rw [serve_of_reaches H input prompt (execute H) fuel hline]
    refine ⟨fun moved hmoved => ?_, fun e hdown => ?_, fun reason hlost => ?_⟩
    · rw [hmoved] at hreporting
      rw [bind_of_ok hreporting]
    · rw [hdown.1] at hreporting
      dsimp only at hreporting
      rw [if_pos hdown.2] at hreporting
      exact bind_of_ok hreporting
    · rw [hlost] at hreporting
      exact bind_of_error hreporting

/-- A line is read that goes to the root, and the shell goes there and reads on. -/
theorem directory_change_survived_on_sample :
    let before : Shell SampleWorld :=
      sampleShell { input := [.data [0x63, 0x64, 0x20, 0x2F, 0x0A]] }
    let sh : Shell SampleWorld := sampleShell {}
    Reaches (sampleHost []) sampleInput none {} before ['c', 'd', ' ', '/'] {} sh ∧
    (sampleHost []).changeDirectory ['/'] sh.world = .ok sh.world ∧
    runChangeDirectory (sampleHost []) [['/']] sh = .ok () sh ∧
    serve (sampleHost []) sampleInput none (execute (sampleHost [])) 2 {} before =
      serve (sampleHost []) sampleInput none (execute (sampleHost [])) 1 {}
        (sampleShell { printed := [""] }) := by
  have hspares := directory_change_survived_iff (sampleHost [])
  obtain ⟨-, -, hserve, habsolute⟩ := hspares
  have hreaches : Reaches (sampleHost []) sampleInput none {}
      (sampleShell { input := [.data [0x63, 0x64, 0x20, 0x2F, 0x0A]] }) ['c', 'd', ' ', '/'] {}
      (sampleShell {}) :=
    ⟨sampleShell {}, rfl, rfl⟩
  have hmoved := habsolute ['/'] (sampleShell {}) {} rfl rfl
  have hgoes := (hserve sampleInput none 1 {} {} _ (sampleShell {}) _ _ hreaches rfl rfl).1 _ hmoved
  exact ⟨hreaches, rfl, hmoved, hgoes⟩

/-! ## A shell that is lost -/

/-- A machine with a directory besides the root, and a shell that is in it. -/
def inside : Machine :=
  let (here, files) := ({} : FileTree).descend FileTree.root [['d']]
  { files
    openings := Machine.standardOpenings
    shellPid := ⟨1⟩
    nextPid := 2
    directory := here
    home := some ['/'] }

/-- The same machine after somebody has removed the directory. -/
def directoryRemoved : Machine :=
  { inside with files := inside.files.takeName FileTree.root ['d'] }

/-- A shell whose directory is removed under it cannot go to the root, where nothing is in its way,
and it does not survive the attempt. -/
theorem directory_change_fails_without_working_directory :
    inside.files.removeDirectory FileTree.root ['d'] = .ok directoryRemoved.files ∧
    Path.isAbsolute ['/'] = true ∧
    Machine.host.changeDirectory ['/'] directoryRemoved =
      .ok { directoryRemoved with directory := FileTree.root } ∧
    runChangeDirectory Machine.host [['/']] (fresh {} 1 {} directoryRemoved) =
      .error (.failed (.io (.system .noEntry))) (fresh {} 1 {} directoryRemoved) ∧
    (ShellError.io (.system .noEntry)).isRecoverable = false ∧
    execute Machine.host ['c', 'd', ' ', '/'] (fresh {} 1 {} directoryRemoved) =
      .error (.failed (.io (.system .noEntry))) (fresh {} 1 {} directoryRemoved) := by
  refine ⟨by decide, rfl, rfl, rfl, rfl, rfl⟩

end Conch.Shell
