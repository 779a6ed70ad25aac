import Conch.Process.Children
import Conch.Shell.Serve

/-!
# How actions run

An action of a shell is followed step by step: when its first part has done its work the rest
goes on from there (`bind_of_ok`), and when its first part stops short so does the whole
(`bind_of_error`).  Polling for signals, and notifying the user of the background jobs that have
ended, always come to their end.

Taking in signals comes to its end unless one of them kills the shell, and it changes nothing but
the signals then.  What is done under a guard, and how a process is created, is said once by the
phases that it goes through (`of_guarded_eq_ok`, `of_create_eq_ok`).

What an action can do to a shell is bounded by a `Frame`: a relation between shells before and
after that can be composed, so an action stays within a frame if its parts do, whether it comes to
its end or stops short.

A round of the service of a stream is an `attempt` to read a line, and what follows by its
outcome (`serve_succ`).
-/

namespace Conch.Shell

variable {σ α β : Type}

/-- The rest of an action goes on from where its first part has come. -/
theorem bind_of_ok {action : Act σ α} {rest : α → Act σ β} {sh sh' : Shell σ} {a : α}
    (h : action sh = .ok a sh') : (action >>= rest) sh = rest a sh' := by
  simp only [bind, EStateM.bind, h]

/-- An action stops short where its first part does, and the rest of it is not begun. -/
theorem bind_of_error {action : Act σ α} {rest : α → Act σ β} {sh sh' : Shell σ} {stop : Stop}
    (h : action sh = .error stop sh') : (action >>= rest) sh = .error stop sh' := by
  simp only [bind, EStateM.bind, h]

/-- An action that comes to its end has done so in both of its parts. -/
theorem of_bind_eq_ok {action : Act σ α} {rest : α → Act σ β} {sh sh' : Shell σ} {b : β}
    (h : (action >>= rest) sh = .ok b sh') :
    ∃ a mid, action sh = .ok a mid ∧ rest a mid = .ok b sh' := by
  rcases hrun : action sh with ⟨a, mid⟩ | ⟨stop, mid⟩
  · rw [bind_of_ok hrun] at h
    exact ⟨a, mid, rfl, h⟩
  · rw [bind_of_error hrun] at h
    exact absurd h (by simp)

/-- An action that stops short does so in one of its parts. -/
theorem of_bind_eq_error {action : Act σ α} {rest : α → Act σ β} {sh sh' : Shell σ} {stop : Stop}
    (h : (action >>= rest) sh = .error stop sh') :
    action sh = .error stop sh' ∨
      ∃ a mid, action sh = .ok a mid ∧ rest a mid = .error stop sh' := by
  rcases hrun : action sh with ⟨a, mid⟩ | ⟨early, mid⟩
  · rw [bind_of_ok hrun] at h
    exact .inr ⟨a, mid, rfl, h⟩
  · rw [bind_of_error hrun] at h
    obtain ⟨rfl, rfl⟩ := EStateM.Result.error.inj h
    exact .inl rfl

/-- What catches an action looks at its result and keeps the shell that it has left. -/
theorem tryCatch_eq (action : Act σ α) (handler : Stop → Act σ α) (sh : Shell σ) :
    tryCatch action handler sh = match action sh with
      | .error stop sh' => handler stop sh'
      | .ok a sh' => .ok a sh' := by
  change EStateM.tryCatch action handler sh = _
  delta EStateM.tryCatch
  cases action sh with
  | ok => rfl
  | error => rfl

/-- Nothing is caught of an action that comes to its end. -/
theorem tryCatch_of_ok {action : Act σ α} {handler : Stop → Act σ α} {sh sh' : Shell σ} {a : α}
    (h : action sh = .ok a sh') : tryCatch action handler sh = .ok a sh' := by
  rw [tryCatch_eq, h]

/-- What catches an action goes on from where it stopped short. -/
theorem tryCatch_of_error {action : Act σ α} {handler : Stop → Act σ α} {sh sh' : Shell σ}
    {stop : Stop} (h : action sh = .error stop sh') :
    tryCatch action handler sh = handler stop sh' := by
  rw [tryCatch_eq, h]

/-- The shell that an action leaves behind, at its end or where it stops short. -/
def left : EStateM.Result Stop (Shell σ) α → Shell σ
  | .ok _ sh => sh
  | .error _ sh => sh

@[simp] theorem left_ok (a : α) (sh : Shell σ) : left (.ok a sh) = sh := rfl

@[simp] theorem left_error (stop : Stop) (sh : Shell σ) :
    left (.error stop sh : EStateM.Result Stop (Shell σ) α) = sh := rfl

/-- What actions may do to a shell: nothing, or one thing after another. -/
structure Frame (σ : Type) where
  Allows : Shell σ → Shell σ → Prop
  refl : ∀ sh, Allows sh sh
  trans : ∀ {sh sh' sh''}, Allows sh sh' → Allows sh' sh'' → Allows sh sh''

namespace Frame

/-- What is true of a shell may not become false. -/
def ofInvariant (invariant : Shell σ → Prop) : Frame σ where
  Allows sh sh' := invariant sh → invariant sh'
  refl _ h := h
  trans h h' hsh := h' (h hsh)

variable (frame : Frame σ)

/-- Does an action stay within the frame, wherever it starts? -/
def Bounds (action : Act σ α) : Prop :=
  ∀ sh, frame.Allows sh (left (action sh))

theorem bounds_pure (a : α) : frame.Bounds (pure a) :=
  frame.refl

theorem bounds_throw (stop : Stop) : frame.Bounds (throw stop : Act σ α) :=
  frame.refl

theorem bounds_get : frame.Bounds get :=
  frame.refl

/-- A change of the shell is bounded by a frame if the frame allows it wherever it is made. -/
theorem bounds_modify {f : Shell σ → Shell σ} (h : ∀ sh, frame.Allows sh (f sh)) :
    frame.Bounds (modify f) :=
  h

/-- **A frame bounds what is put together of what it bounds**: whatever the two actions may do, one
after the other they may do it. -/
theorem bounds_bind {action : Act σ α} {rest : α → Act σ β} (haction : frame.Bounds action)
    (hrest : ∀ a, frame.Bounds (rest a)) : frame.Bounds (action >>= rest) := by
  intro sh
  have hfirst := haction sh
  rcases hrun : action sh with ⟨a, sh'⟩ | ⟨stop, sh'⟩
  · rw [hrun] at hfirst
    rw [bind_of_ok hrun]
    exact frame.trans hfirst (hrest a sh')
  · rw [hrun] at hfirst
    rw [bind_of_error hrun]
    exact hfirst

/-- An action that looks at the shell goes on from where it looked. -/
theorem bounds_get_bind {rest : Shell σ → Act σ β}
    (h : ∀ sh, frame.Allows sh (left (rest sh sh))) : frame.Bounds (get >>= rest) :=
  h

theorem bounds_ite {p : Prop} [Decidable p] {action action' : Act σ α} (h : frame.Bounds action)
    (h' : frame.Bounds action') : frame.Bounds (if p then action else action') := by
  split
  · exact h
  · exact h'

/-- To do for each of some items what a frame bounds is bounded by it, however many items there
are. -/
theorem bounds_forM {items : List α} {action : α → Act σ PUnit}
    (h : ∀ item ∈ items, frame.Bounds (action item)) : frame.Bounds (items.forM action) := by
  induction items with
  | nil => exact frame.bounds_pure _
  | cons item items ih =>
      exact frame.bounds_bind (h item List.mem_cons_self) fun _ =>
        ih fun other hother => h other (List.mem_cons_of_mem _ hother)

/-- To mend a failure is bounded by a frame if the action is, and what is done about the failure. -/
theorem bounds_tryCatch {action : Act σ α} {handler : Stop → Act σ α}
    (haction : frame.Bounds action) (hhandler : ∀ stop, frame.Bounds (handler stop)) :
    frame.Bounds (tryCatch action handler) := by
  intro sh
  have hfirst := haction sh
  rcases hrun : action sh with ⟨a, sh'⟩ | ⟨stop, sh'⟩
  · rw [tryCatch_of_ok hrun]
    rwa [hrun] at hfirst
  · rw [tryCatch_of_error hrun]
    rw [hrun] at hfirst
    exact frame.trans hfirst (hhandler stop sh')

end Frame

variable (H : Host σ)

/-- The world after several lines were printed. -/
def printAll (lines : List String) (world : σ) : σ :=
  lines.foldl (fun world line => H.print line world) world

/-- To print a line for each of several things is to print these lines, in order, and it does not
fail. -/
theorem forM_print (line : α → String) (items : List α) (sh : Shell σ) :
    (items.forM fun item => print H (line item)) sh =
      .ok () { sh with world := printAll H (items.map line) sh.world } := by
  induction items generalizing sh with
  | nil => rfl
  | cons item items ih =>
      have hfirst : print H (line item) sh =
          .ok () { sh with world := H.print (line item) sh.world } := rfl
      rw [List.forM, bind_of_ok hfirst, ih]
      rfl

/-- The shell after it has swept its table and told its user about the jobs that have ended. -/
def notified (sh : Shell σ) : Shell σ :=
  let (ended, jobs, world) := sh.jobs.sweep H.poll sh.world
  { sh with jobs, world := printAll H (ended.map fun job => job.text ++ "\n") world }

/-- A notification always comes to its end, and what it makes of the shell is this. -/
theorem notify_eq (sh : Shell σ) : notify H sh = .ok () (notified H sh) :=
  forM_print H (fun job : Job => job.text ++ "\n") _ _

/-- Changing the mode never stops short, and leaves the control signals alone. -/
theorem times_toggleMode_ok (n : Nat) (sh : Shell σ) :
    ∃ sh', times (toggleMode H) n sh = .ok () sh' ∧ sh'.signals = sh.signals := by
  induction n generalizing sh with
  | zero => exact ⟨sh, rfl, rfl⟩
  | succ n ih =>
      obtain ⟨sh', hrest, hsame⟩ := ih (left (toggleMode H sh))
      exact ⟨sh', hrest, hsame⟩

/-- A poll always comes to its end, and nothing is left to note. -/
theorem pollSignals_ok (sh : Shell σ) :
    ∃ sh', pollSignals H sh = .ok () sh' ∧
      sh'.signals = { sh.signals with caught := false, stopsTaken := sh.signals.stops } :=
  times_toggleMode_ok H _ _

/-- Nothing follows when the shell leaves: whatever was to be done after it is not. -/
theorem leave_bind (code : Option Int) (rest : α → Act σ β) :
    leave H code >>= rest = leave H code := by
  simp only [leave, bind_assoc]
  rfl

/-- An action that succeeds leaves nothing to report, and the shell goes on as it is. -/
theorem reporting_of_ok {action : Act σ Unit} {sh sh' : Shell σ}
    (h : action sh = .ok () sh') : reporting H action sh = .ok () sh' :=
  tryCatch_of_ok h

/-- An action that fails is reported if it can be mended, and fails again if it cannot. -/
theorem reporting_of_failed {action : Act σ Unit} {sh sh' : Shell σ} {e : ShellError}
    (h : action sh = .error (.failed e) sh') :
    reporting H action sh = (if e.isRecoverable then report H e else fail e) sh' :=
  tryCatch_of_error h

/-- What has been done by then is not undone when something is reported. -/
theorem reporting_bind_of_ok {first : Act σ α} {rest : α → Act σ Unit} {sh sh' : Shell σ} {a : α}
    (h : first sh = .ok a sh') :
    reporting H (first >>= rest) sh = reporting H (rest a) sh' := by
  rw [reporting, reporting, tryCatch_eq, tryCatch_eq, bind_of_ok h]

/-! ## What taking in signals can come to -/

/-- If the action stops short, a signal has killed the shell. -/
def OnlyKills (action : Act σ α) : Prop :=
  ∀ sh stop sh', action sh = .error stop sh' → ∃ number, stop = .ended (.killed number)

/-- If neither of two actions can stop short but by a signal that kills, neither can both of them
together. -/
theorem onlyKills_bind {action : Act σ α} {rest : α → Act σ β} (h : OnlyKills action)
    (hrest : ∀ a, OnlyKills (rest a)) : OnlyKills (action >>= rest) := by
  intro sh stop sh' hstop
  rcases hrun : action sh with ⟨a, mid⟩ | ⟨early, mid⟩
  · rw [bind_of_ok hrun] at hstop
    exact hrest a mid stop sh' hstop
  · rw [bind_of_error hrun] at hstop
    obtain ⟨rfl, rfl⟩ := EStateM.Result.error.inj hstop
    exact h sh early mid hrun

theorem onlyKills_modify (f : Shell σ → Shell σ) : OnlyKills (modify f) :=
  fun _ _ _ h => nomatch h

theorem onlyKills_finish (number : Int) : OnlyKills (finish (.killed number) : Act σ α) := by
  intro sh stop sh' h
  obtain ⟨rfl, rfl⟩ := EStateM.Result.error.inj h
  exact ⟨number, rfl⟩

/-- What happens to the control signals stops the shell only if one of them kills it. -/
theorem onlyKills_adjust (f : SignalState → Fate) : OnlyKills (adjust H f) := by
  refine onlyKills_bind (fun _ _ _ h => nomatch h) fun sh => ?_
  cases f sh.signals with
  | alive signals => exact onlyKills_modify _
  | killed signal announced =>
      cases announced with
      | false => exact onlyKills_finish _
      | true =>
          exact onlyKills_bind (onlyKills_modify _) fun _ =>
            onlyKills_bind (onlyKills_modify _) fun _ => onlyKills_finish _

/-- A signal that comes in stops the shell only by killing it, whichever signal it is. -/
theorem onlyKills_receive (number : Int) : OnlyKills (receive H number) := by
  unfold receive
  cases ControlSignal.ofNumber? number with
  | some signal => exact onlyKills_adjust H _
  | none =>
      dsimp only
      split
      · exact fun _ _ _ h => nomatch h
      · exact onlyKills_finish number

/-- Taking in signals comes to its end unless one of them kills the shell. -/
theorem onlyKills_takeSignals : OnlyKills (takeSignals H) := by
  refine onlyKills_bind (fun _ _ _ h => nomatch h) fun numbers => ?_
  induction numbers with
  | nil => exact fun _ _ _ h => nomatch h
  | cons number numbers ih => exact onlyKills_bind (onlyKills_receive H number) fun _ => ih

section Taken

variable {sh sh' : Shell σ}

/-- A change of the control signals comes to its end if the shell lives through it, and changes
nothing else. -/
theorem of_adjust_eq_ok {f : SignalState → Fate} (h : adjust H f sh = .ok () sh') :
    ∃ signals, f sh.signals = .alive signals ∧ sh' = { sh with signals } := by
  have hrun : adjust H f sh = undergo H (f sh.signals) sh := rfl
  rw [hrun] at h
  cases hfate : f sh.signals with
  | alive signals =>
      rw [hfate] at h
      exact ⟨signals, rfl, (EStateM.Result.ok.inj h).2.symm⟩
  | killed signal announced =>
      rw [hfate] at h
      cases announced <;> exact nomatch h

/-- A signal that was taken in is a control signal that was raised, or has changed nothing. -/
theorem of_receive_eq_ok {number : Int} (h : receive H number sh = .ok () sh') :
    (∃ c signals, sh.signals.raise c = .alive signals ∧ sh' = { sh with signals }) ∨ sh' = sh := by
  unfold receive at h
  cases hnumber : ControlSignal.ofNumber? number with
  | some c =>
      rw [hnumber] at h
      obtain ⟨signals, hraise, hafter⟩ := of_adjust_eq_ok H h
      exact .inl ⟨c, signals, hraise, hafter⟩
  | none =>
      rw [hnumber] at h
      dsimp only at h
      split at h
      · exact .inr (EStateM.Result.ok.inj h).2.symm
      · exact nomatch h

/-- The control signals among those that were taken in have been raised one after the other. -/
theorem of_forM_receive_eq_ok {numbers : List Int} (h : numbers.forM (receive H) sh = .ok () sh') :
    ∃ cs signals, sh.signals.raiseAll cs = .alive signals ∧ sh' = { sh with signals } := by
  induction numbers generalizing sh with
  | nil => exact ⟨[], sh.signals, rfl, (EStateM.Result.ok.inj h).2.symm⟩
  | cons number numbers ih =>
      obtain ⟨⟨⟩, mid, hfirst, hothers⟩ := of_bind_eq_ok h
      obtain ⟨cs, signals, hcs, rfl⟩ := ih hothers
      rcases of_receive_eq_ok H hfirst with ⟨c, raised, hraise, rfl⟩ | rfl
      · refine ⟨c :: cs, signals, ?_, rfl⟩
        rw [SignalState.raiseAll, hraise]
        exact hcs
      · exact ⟨cs, signals, hcs, rfl⟩

/-- Whoever takes in signals and lives on has raised some of them. -/
theorem of_takeSignals_eq_ok (h : takeSignals H sh = .ok () sh') :
    ∃ cs signals, sh.signals.raiseAll cs = .alive signals ∧
      sh' = { sh with signals, world := (H.arrivals sh.world).2 } := by
  obtain ⟨numbers, heard, hrequest, hrest⟩ := of_bind_eq_ok h
  obtain ⟨-, rfl⟩ := EStateM.Result.ok.inj hrequest
  exact of_forM_receive_eq_ok H hrest

/-- When signals were taken in and the shell lives, its control signals are what raising some of
them has made of them. -/
theorem raised_of_takeSignals (h : takeSignals H sh = .ok () sh') :
    ∃ cs, sh.signals.raiseAll cs = .alive sh'.signals := by
  obtain ⟨cs, signals, hraised, rfl⟩ := of_takeSignals_eq_ok H h
  exact ⟨cs, hraised⟩

/-! ## What is done under a guard -/

/-- An action under a guard: signals come to wait before it and after it, and then the mask is put
back. -/
theorem of_guarded_eq_ok {action : Act σ α} {a : α} (h : guarded H action sh = .ok a sh') :
    ∃ begun done last,
      takeSignals H { sh with signals := sh.signals.block } = .ok () begun ∧
      action begun = .ok a done ∧ takeSignals H done = .ok () last ∧
      adjust H (·.setBlocked sh.signals.blocked) last = .ok () sh' := by
  obtain ⟨_, asked, hlook, h⟩ := of_bind_eq_ok h
  obtain ⟨rfl, rfl⟩ := EStateM.Result.ok.inj hlook
  obtain ⟨_, blocked, hblock, h⟩ := of_bind_eq_ok h
  obtain ⟨-, rfl⟩ := EStateM.Result.ok.inj hblock
  obtain ⟨_, begun, htake, h⟩ := of_bind_eq_ok h
  obtain ⟨b, done, hrun, h⟩ := of_bind_eq_ok h
  obtain ⟨_, last, hlater, h⟩ := of_bind_eq_ok h
  obtain ⟨_, released, hadjust, h⟩ := of_bind_eq_ok h
  obtain ⟨rfl, rfl⟩ := EStateM.Result.ok.inj h
  exact ⟨begun, done, last, htake, hrun, hlater, hadjust⟩

/-- The creation of a process: signals come to wait before and after each of its steps, which are to
install the set of the child, to create it, and to install the set of the shell again. -/
theorem of_create_eq_ok {command : Command} {created : Option ProcessId}
    (h : create H command sh = .ok created sh') : ∃ begun ready drained last,
      let launch : Launch := ⟨command, ready.signals⟩
      takeSignals H { sh with signals := sh.signals.block } = .ok () begun ∧
      takeSignals H { begun with
        signals := begun.signals.install (.child command.background) } = .ok () ready ∧
      (H.fork launch ready.world).1 = created ∧
      takeSignals H { ready with world := (H.fork launch ready.world).2 } = .ok () drained ∧
      takeSignals H { drained with signals := drained.signals.install .interactive } =
        .ok () last ∧
      adjust H (·.setBlocked sh.signals.blocked) last = .ok () sh' := by
  obtain ⟨begun, done, last, htake, hrun, hlater, hadjust⟩ := of_guarded_eq_ok H h
  obtain ⟨_, armed, harm, hrun⟩ := of_bind_eq_ok hrun
  obtain ⟨-, rfl⟩ := EStateM.Result.ok.inj harm
  obtain ⟨_, ready, hready, hrun⟩ := of_bind_eq_ok hrun
  obtain ⟨_, asked, hlook, hrun⟩ := of_bind_eq_ok hrun
  obtain ⟨rfl, rfl⟩ := EStateM.Result.ok.inj hlook
  obtain ⟨pid, forked, hfork, hrun⟩ := of_bind_eq_ok hrun
  obtain ⟨rfl, rfl⟩ := EStateM.Result.ok.inj hfork
  obtain ⟨_, drained, hdrained, hrun⟩ := of_bind_eq_ok hrun
  obtain ⟨_, back, hback, hrun⟩ := of_bind_eq_ok hrun
  obtain ⟨-, rfl⟩ := EStateM.Result.ok.inj hback
  obtain ⟨rfl, rfl⟩ := EStateM.Result.ok.inj hrun
  exact ⟨begun, ready, drained, last, htake, hready, rfl, hdrained, hlater, hadjust⟩

end Taken

/-! ## Rounds -/

/-- An attempt to read a line, with all that happens before and right after it. -/
def attempt (input : InputStream σ) (prompt : Option String) (reader : LineReader) :
    Act σ (ReadOutcome × LineReader) := do
  prepare H prompt
  let read ← readLine input reader
  takeSignals H
  pure read

variable (input : InputStream σ) (prompt : Option String) (perform : Text → Act σ Unit)

/-- What a round does by the outcome of its attempt to read a line. -/
def answerOutcome (fuel : Nat) : ReadOutcome × LineReader → Act σ Unit
  | (.failed errno, _) => fail (.system errno)
  | (.endOfInput, _) => pollSignals H
  | (.interrupted, reader) => do
    pollSignals H
    let sh ← get
    if sh.interpreter.signalCaught && sh.config.interactive then
      print H "\n"
    serve H input prompt perform fuel reader
  | (.line text, reader) => do
    pollSignals H
    reporting H (perform text)
    serve H input prompt perform fuel reader

/-- A round attempts to read a line, and goes on by the outcome. -/
theorem serve_succ (fuel : Nat) (reader : LineReader) :
    serve H input prompt perform (fuel + 1) reader =
      attempt H input prompt reader >>= answerOutcome H input prompt perform fuel := by
  rw [serve, attempt, bind_assoc]
  refine bind_congr fun _ => ?_
  rw [bind_assoc]
  refine bind_congr fun read => ?_
  rw [bind_assoc]
  refine bind_congr fun _ => ?_
  rw [pure_bind]
  obtain ⟨outcome, reader'⟩ := read
  cases outcome <;> rfl

/-! ## A small host -/

/-- A world to try things in: what was printed, the answers that reads of standard input will get,
and how many stop signals will come in, each time the shell takes in signals. -/
structure SampleWorld where
  printed : List String := []
  input : List ReadAnswer := []
  stops : List Nat := []

/-- The standard input of a sample world. -/
def sampleInput : InputStream SampleWorld where
  answers world := world.input
  advance n world := { world with input := world.input.drop n }
  bound world := world.input.length

/-- A host on which every program gets the same process, and the shell is given the same answers
about it. -/
def sampleHost (answers : List WaitAnswer) : Host SampleWorld where
  print text world := { world with printed := world.printed ++ [text] }
  printError _ world := world
  arrivals world :=
    (List.replicate (world.stops.headD 0) ControlSignal.stop.number,
      { world with stops := world.stops.tail })
  fork _ world := (some ⟨7⟩, world)
  wait _ world := (answers, world)
  poll pid world := (strangerAnswer pid, world)
  terminate _ world := (some .noProcess, world)
  terminateGroup world := world
  workingDirectory _ := .ok ['/']
  home _ := none
  changeDirectory _ world := .ok world
  exportDirectories _ _ world := world
  standardInput := sampleInput
  openLines _ _ := .error (.system .noEntry)
  openLog _ _ := .error (.system .noEntry)

/-- A shell in a sample world that has just been started. -/
def sampleShell (world : SampleWorld) : Shell SampleWorld :=
  fresh {} 1 {} world

end Conch.Shell
