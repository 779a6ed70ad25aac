import Conch.Proofs.Shell.Action

/-!
# Interrupts and stops do not kill a shell

A shell that handles its control signals, and to which nobody has sent a terminate signal yet,
lives through every interrupt and every stop, wherever they come: while it runs they are handled,
and while it creates a child, when the handlers are those of the child, they are held off.  After
each action it handles its control signals again, with the mask it had before (`Attentive`).

So on a host that sends no other signals (`OnlyInterruptsAndStops`) no signal ends the service of a
stream: `spared_serve`.
-/

namespace Conch

/-- The control signals are handled, none that kills is waiting, and the mask is this one. -/
structure Attentive (mask : PerSignal Bool) (s : SignalState) : Prop where
  handled : s.action = .const .handler
  unharmed : s.pending.terminate = false
  masked : s.blocked = mask

/-- The control signals are held off, and none that kills is waiting. -/
structure Sheltered (s : SignalState) : Prop where
  unharmed : s.pending.terminate = false
  masked : s.blocked = .const true

/-- The process lives on, in a state of this kind. -/
def Fate.Lives (P : SignalState → Prop) : Fate → Prop
  | alive s => P s
  | killed _ _ => False

namespace SignalState

variable {mask : PerSignal Bool} {s : SignalState}

/-- A process that handles its control signals survives any signal but the terminate signal, and
goes on handling them. -/
theorem lives_raise_of_attentive (h : Attentive mask s) {c : ControlSignal}
    (hc : c ≠ .terminate) : (s.raise c).Lives (Attentive mask) := by
  have hhandler : s.action.get c = .handler := by rw [h.handled, PerSignal.get_const]
  unfold raise
  split
  · cases c with
    | interrupt => exact ⟨h.handled, h.unharmed, h.masked⟩
    | terminate => exact absurd rfl hc
    | stop => exact ⟨h.handled, h.unharmed, h.masked⟩
  · rw [deliver, hhandler]
    cases c with
    | interrupt => exact ⟨h.handled, h.unharmed, h.masked⟩
    | terminate => exact absurd rfl hc
    | stop => exact ⟨h.handled, h.unharmed, h.masked⟩

/-- A process that holds its control signals off survives whatever is raised, and no fatal signal
comes to wait unless it is the terminate signal. -/
theorem lives_raise_of_sheltered (h : Sheltered s) {c : ControlSignal} (hc : c ≠ .terminate) :
    (s.raise c).Lives Sheltered := by
  have hblocked : s.blocked.get c = true := by rw [h.masked, PerSignal.get_const]
  rw [raise, if_pos hblocked]
  cases c with
  | interrupt => exact ⟨h.unharmed, h.masked⟩
  | terminate => exact absurd rfl hc
  | stop => exact ⟨h.unharmed, h.masked⟩

/-- A process in which no terminate signal waits survives whatever is let go. -/
theorem lives_release_of_attentive (h : Attentive mask s) (c : ControlSignal) :
    (s.release c).Lives (Attentive mask) := by
  have hhandler : s.action.get c = .handler := by rw [h.handled, PerSignal.get_const]
  unfold release
  split
  · next hpending =>
      rw [deliver, hhandler]
      cases c with
      | interrupt => exact ⟨h.handled, h.unharmed, h.masked⟩
      | terminate =>
          have hnone : s.pending.get .terminate = false := h.unharmed
          simp [hnone] at hpending
      | stop => exact ⟨h.handled, h.unharmed, h.masked⟩
  · exact h

/-- Who survives two things one after the other survives both. -/
theorem lives_andThen {P Q : SignalState → Prop} {fate : Fate} {next : SignalState → Fate}
    (h : fate.Lives P) (hnext : ∀ s, P s → (next s).Lives Q) : (fate.andThen next).Lives Q := by
  cases fate with
  | alive s => exact hnext s h
  | killed signal announced => exact h.elim

/-- Whatever the mask was, a new one takes its place. -/
theorem lives_setBlocked {old : PerSignal Bool} (h : Attentive old s) (mask : PerSignal Bool) :
    (s.setBlocked mask).Lives (Attentive mask) := by
  have hmasked : Attentive mask { s with blocked := mask } := ⟨h.handled, h.unharmed, rfl⟩
  exact lives_andThen (lives_release_of_attentive hmasked .interrupt) fun _ hs =>
    lives_andThen (lives_release_of_attentive hs .terminate) fun _ hs =>
      lives_release_of_attentive hs .stop

/-- The handlers of a child can be installed where signals are held off. -/
theorem sheltered_install (h : Sheltered s) (background : Bool) :
    Sheltered (s.install (.child background)) := by
  cases background <;> exact ⟨h.unharmed, h.masked⟩

/-- A process that was sheltered, and installs the handlers of the shell, is attentive again, with
everything blocked. -/
theorem attentive_install (h : Sheltered s) :
    Attentive (.const true) (s.install .interactive) :=
  ⟨rfl, h.unharmed, h.masked⟩

end SignalState

namespace Shell

variable {σ α β : Type}

/-- The action was not cut short by a signal.  The control signals are of the first kind if it has
failed, and of the second kind if it has come to its end. -/
def Fine (F Q : SignalState → Prop) : EStateM.Result Stop (Shell σ) α → Prop
  | .ok _ sh => Q sh.signals
  | .error (.failed _) sh => F sh.signals
  | .error (.ended ending) _ => ∀ number, ending ≠ .killed number

/-- Begun with control signals of one kind, an action leaves them as those of another kind. -/
def Survives (F P Q : SignalState → Prop) (action : Act σ α) : Prop :=
  ∀ sh, P sh.signals → Fine F Q (action sh)

section Rules

variable {F P Q R : SignalState → Prop}

theorem survives_pure (a : α) : Survives F P P (pure a : Act σ α) :=
  fun _ h => h

theorem survives_fail (e : ShellError) : Survives P P P (fail e : Act σ α) :=
  fun _ h => h

theorem survives_finish {ending : Ending} (h : ∀ number, ending ≠ .killed number) :
    Survives F P Q (finish ending : Act σ α) :=
  fun _ _ => h

/-- A change of the shell is survived if it leads from control signals of the one kind to those of
the other. -/
theorem survives_modify {f : Shell σ → Shell σ} (h : ∀ sh, P sh.signals → Q (f sh).signals) :
    Survives F P Q (modify f) :=
  h

theorem survives_request (f : σ → α × σ) : Survives F P P (request f) :=
  fun _ h => h

/-- What is put together of actions that survive survives, if the second begins with what the first
has left. -/
theorem survives_bind {action : Act σ α} {rest : α → Act σ β} (haction : Survives F P Q action)
    (hrest : ∀ a, Survives F Q R (rest a)) : Survives F P R (action >>= rest) := by
  intro sh h
  have hfirst := haction sh h
  rcases hrun : action sh with ⟨a, sh'⟩ | ⟨stop, sh'⟩
  · rw [hrun] at hfirst
    rw [bind_of_ok hrun]
    exact hrest a sh' hfirst
  · rw [hrun] at hfirst
    rw [bind_of_error hrun]
    cases stop with
    | failed e => exact hfirst
    | ended ending => exact hfirst

/-- An action that looks at the shell goes on from where it looked. -/
theorem survives_get {rest : Shell σ → Act σ β}
    (h : ∀ sh, P sh.signals → Fine F Q (rest sh sh)) : Survives F P Q (get >>= rest) :=
  h

theorem survives_ite {p : Prop} [Decidable p] {action action' : Act σ α}
    (h : Survives F P Q action) (h' : Survives F P Q action') :
    Survives F P Q (if p then action else action') := by
  split
  · exact h
  · exact h'

theorem survives_forM {items : List α} {action : α → Act σ PUnit}
    (h : ∀ item ∈ items, Survives F P P (action item)) : Survives F P P (items.forM action) := by
  induction items with
  | nil => exact survives_pure _
  | cons item items ih =>
      exact survives_bind (h item List.mem_cons_self) fun _ =>
        ih fun other hother => h other (List.mem_cons_of_mem _ hother)

/-- To mend failures is survived if the action is, and what is done about a failure; an end is left
as it is. -/
theorem survives_tryCatch {action : Act σ α} {handler : Stop → Act σ α}
    (haction : Survives P P P action) (hfailed : ∀ e, Survives P P P (handler (.failed e)))
    (hended : ∀ ending, handler (.ended ending) = finish ending) :
    Survives P P P (tryCatch action handler) := by
  intro sh h
  have hfirst := haction sh h
  rcases hrun : action sh with ⟨a, sh'⟩ | ⟨stop, sh'⟩
  · rw [hrun] at hfirst
    rw [tryCatch_of_ok hrun]
    exact hfirst
  · rw [hrun] at hfirst
    rw [tryCatch_of_error hrun]
    cases stop with
    | failed e => exact hfailed e sh' hfirst
    | ended ending =>
        rw [hended]
        exact hfirst

end Rules

/-! ## Taking in signals -/

variable (H : Host σ)

/-- The host sends no signals but interrupts and stops. -/
def OnlyInterruptsAndStops : Prop :=
  ∀ world, ∀ number ∈ (H.arrivals world).1,
    number = ControlSignal.interrupt.number ∨ number = ControlSignal.stop.number

section Signals

variable {F P Q : SignalState → Prop}

/-- What happens to the control signals is survived if it is for all that are of the kind. -/
theorem survives_adjust {f : SignalState → Fate} (h : ∀ s, P s → (f s).Lives Q) :
    Survives F P Q (adjust H f) := by
  refine survives_get fun sh hsh => ?_
  have hlives := h sh.signals hsh
  cases hfate : f sh.signals with
  | alive signals =>
      rw [hfate] at hlives
      exact hlives
  | killed signal announced =>
      rw [hfate] at hlives
      exact hlives.elim

/-- Where no interrupt and no stop can kill, the signals are taken in. -/
theorem survives_takeSignals (hcalm : OnlyInterruptsAndStops H)
    (hraise : ∀ s, P s → ∀ c, c ≠ .terminate → (s.raise c).Lives P) :
    Survives F P P (takeSignals H) := by
  have hreceive : ∀ number, number = ControlSignal.interrupt.number ∨
      number = ControlSignal.stop.number → Survives F P P (receive H number) := by
    rintro number (rfl | rfl)
    · exact survives_adjust H fun s hs => hraise s hs .interrupt (by decide)
    · exact survives_adjust H fun s hs => hraise s hs .stop (by decide)
  intro sh hsh
  exact survives_forM (fun number hin => hreceive number (hcalm sh.world number hin)) _ hsh

variable {mask : PerSignal Bool} (hcalm : OnlyInterruptsAndStops H)

include hcalm

/-- To take in signals is survived by a shell that handles them, if the terminate signal is not
among them. -/
theorem survives_takeSignals_of_attentive :
    Survives F (Attentive mask) (Attentive mask) (takeSignals H) :=
  survives_takeSignals H hcalm fun _ hs _ hc => SignalState.lives_raise_of_attentive hs hc

/-- An action under a guard is followed by the mask that was there before it. -/
theorem survives_guarded {action : Act σ α}
    (h : Survives F (Attentive (.const true)) (Attentive (.const true)) action) :
    Survives F (Attentive mask) (Attentive mask) (guarded H action) := by
  refine survives_get fun sh hsh => ?_
  have hmask : sh.signals.blocked = mask := hsh.masked
  have hblock : Survives F (Attentive mask) (Attentive (.const true)) (modify fun sh : Shell σ =>
      { sh with signals := sh.signals.block }) :=
    survives_modify fun _ h => ⟨h.handled, h.unharmed, rfl⟩
  have hrest : Survives F (Attentive mask) (Attentive mask) (do
      modify fun sh => { sh with signals := sh.signals.block }
      takeSignals H
      let a ← action
      takeSignals H
      adjust H (·.setBlocked mask)
      pure a) := by
    refine survives_bind hblock fun _ => ?_
    refine survives_bind (survives_takeSignals_of_attentive H hcalm) fun _ => ?_
    refine survives_bind h fun a => ?_
    refine survives_bind (survives_takeSignals_of_attentive H hcalm) fun _ => ?_
    refine survives_bind (survives_adjust H fun _ hs => SignalState.lives_setBlocked hs mask)
      fun _ => ?_
    exact survives_pure a
  rw [hmask]
  exact hrest sh hsh

/-- The creation of a process is survived, though the handlers are those of the child for a while:
the signals are held off meanwhile. -/
theorem survives_create (command : Command) :
    Survives F (Attentive mask) (Attentive mask) (create H command) := by
  refine survives_guarded H hcalm ?_
  have hshelter : ∀ s, Sheltered s → ∀ c, c ≠ .terminate → (s.raise c).Lives Sheltered :=
    fun _ hs _ hc => SignalState.lives_raise_of_sheltered hs hc
  have hinstall : Survives F (Attentive (.const true)) Sheltered (modify fun sh : Shell σ =>
      { sh with signals := sh.signals.install (.child command.background) }) :=
    survives_modify fun _ h => SignalState.sheltered_install ⟨h.unharmed, h.masked⟩ _
  refine survives_bind hinstall fun _ =>
    survives_bind (survives_takeSignals H hcalm hshelter) fun _ => ?_
  refine survives_get fun sh hsh => ?_
  have hrest : ∀ launch, Survives F Sheltered (Attentive (.const true)) (do
      let pid ← request (H.fork launch)
      takeSignals H
      modify fun sh => { sh with signals := sh.signals.install .interactive }
      pure pid) := by
    intro launch
    refine survives_bind (survives_request _) fun pid => ?_
    refine survives_bind (survives_takeSignals H hcalm hshelter) fun _ => ?_
    refine survives_bind (survives_modify fun _ h => SignalState.attentive_install h) fun _ => ?_
    exact survives_pure pid
  exact hrest _ sh hsh

end Signals

/-! ## Commands and streams -/

section Lines

variable {mask : PerSignal Bool}

/-- The action starts and ends with the control signals handled, whatever it comes to. -/
def Spared (mask : PerSignal Bool) (action : Act σ α) : Prop :=
  Survives (Attentive mask) (Attentive mask) (Attentive mask) action

theorem spared_notify : Spared mask (notify H) := by
  intro sh hsh
  rw [notify_eq]
  exact hsh

theorem spared_print (text : String) : Spared mask (print H text) :=
  survives_modify fun _ h => h

theorem spared_track (pid : ProcessId) : Spared mask (track H pid) := by
  refine survives_bind (spared_print H _) fun _ => survives_get fun sh hsh => ?_
  cases sh.jobs.register? pid with
  | none => exact hsh
  | some jobs => exact hsh

theorem spared_leave (code : Option Int) : Spared mask (leave H code : Act σ α) := by
  refine survives_get fun sh hsh => ?_
  have hdismiss : Spared mask (sh.jobs.pids.forM fun pid => do
      let _ ← request (H.terminate pid)) :=
    survives_forM fun _ _ => survives_bind (survives_request _) fun _ => survives_pure _
  have hrest : Spared mask (do
      sh.jobs.pids.forM fun pid => do
        let _ ← request (H.terminate pid)
      finish (.exited (code.getD (← get).interpreter.status.last.code)) : Act σ α) :=
    survives_bind hdismiss fun _ => survives_get fun _ _ _ => nofun
  exact hrest sh hsh

theorem spared_runChangeDirectory (arguments : List Word) :
    Spared mask (runChangeDirectory H arguments) := by
  refine survives_ite (survives_bind (survives_fail _) fun _ => ?_) ?_ <;>
  · cases Builtin.directoryUsage.fit arguments with
    | error fault => exact survives_fail _
    | ok matched =>
        refine survives_get fun sh hsh => ?_
        cases H.workingDirectory sh.world with
        | error reason => exact hsh
        | ok here =>
            dsimp only
            cases directoryTarget (matched.positional? "<dir>") here (H.home sh.world) with
            | none => exact hsh
            | some target =>
                dsimp only
                cases H.changeDirectory target sh.world with
                | error reason => exact hsh
                | ok world => exact hsh

theorem spared_runBuiltin (builtin : Builtin) (arguments : List Word) :
    Spared mask (runBuiltin H builtin arguments) := by
  cases builtin with
  | changeDirectory =>
      exact survives_bind (spared_runChangeDirectory H arguments) fun _ => survives_pure _
  | exit => exact spared_leave H _
  | status => exact survives_get fun _ hsh => hsh

theorem spared_reporting {action : Act σ Unit} (h : Spared mask action) :
    Spared mask (reporting H action) :=
  survives_tryCatch h
    (fun _ => survives_ite (survives_modify fun _ h => h) (survives_fail _)) fun _ => rfl

theorem spared_pollSignals : Spared mask (pollSignals H) := by
  have htoggle : Spared mask (toggleMode H) := survives_get fun _ hsh => hsh
  have htimes : ∀ n, Spared mask (times (toggleMode H) n) := by
    intro n
    induction n with
    | zero => exact survives_pure ()
    | succ n ih => exact survives_bind htoggle fun _ => ih
  refine survives_get fun sh hsh => ?_
  exact htimes _ _ ⟨hsh.handled, hsh.unharmed, hsh.masked⟩

variable (hcalm : OnlyInterruptsAndStops H)

include hcalm

/-- To wait for a program is survived, whatever comes in meanwhile but the terminate signal. -/
theorem spared_waitFor (pid : ProcessId) : Spared mask (waitFor H pid) := by
  refine survives_bind (survives_guarded H hcalm (survives_request _)) fun answers => ?_
  rcases conclusion? answers with _ | errno | cause
  · exact survives_finish nofun
  · exact survives_fail _
  · refine survives_bind (survives_modify fun _ h => h) fun _ => ?_
    cases cause with
    | exited code => exact survives_pure ()
    | killed signal => exact spared_print H _

theorem spared_launch (command : Command) : Spared mask (launch H command) := by
  refine survives_get fun sh hsh => ?_
  refine survives_ite (survives_bind (survives_fail _) fun _ => ?_) ?_ sh hsh <;>
  · cases unfitWord? command.argv with
    | some word => exact survives_fail _
    | none =>
        refine survives_bind (survives_create H hcalm command) fun created => ?_
        cases created with
        | none => exact survives_fail _
        | some pid =>
            exact survives_ite
              (survives_bind (spared_track H pid) fun _ => spared_notify H)
              (survives_bind (spared_waitFor H hcalm pid) fun _ => spared_notify H)

/-- **Executing a line is survived**, whatever the line is, as long as no terminate signal comes
in. -/
theorem spared_execute (line : Text) : Spared mask (execute H line) := by
  refine survives_get fun sh hsh => ?_
  rcases Command.parse line sh.pid (!sh.interpreter.foregroundOnly) with fault | _ | command
  · exact hsh
  · exact hsh
  · have hrun : Spared mask (run H command) := by
      unfold run
      cases Builtin.ofName? command.program with
      | none => exact spared_launch H hcalm command
      | some builtin =>
          exact survives_bind (spared_runBuiltin H builtin _) fun _ => spared_print H _
    exact hrun sh hsh

/-- An attempt to read a line is survived, and so are the preparations for it. -/
theorem spared_attempt (input : InputStream σ) (prompt : Option String) (reader : LineReader) :
    Spared mask (attempt H input prompt reader) := by
  have htake : Spared mask (takeSignals H) := survives_takeSignals_of_attentive H hcalm
  have hprepare : Spared mask (prepare H prompt) := by
    refine survives_bind htake fun _ => ?_
    refine survives_bind (spared_pollSignals H) fun _ => ?_
    refine survives_bind (survives_modify fun _ h => h) fun _ => ?_
    refine survives_bind (spared_notify H) fun _ => ?_
    cases prompt with
    | none => exact htake
    | some text => exact survives_bind (spared_print H text) fun _ => htake
  have hread : Spared mask (readLine input reader) := survives_get fun _ hsh => hsh
  refine survives_bind hprepare fun _ => ?_
  refine survives_bind hread fun read => ?_
  refine survives_bind htake fun _ => ?_
  exact survives_pure read

/-- **Interrupts and stops do not end the service of a stream.** -/
theorem spared_serve (input : InputStream σ) (prompt : Option String) (fuel : Nat)
    (reader : LineReader) : Spared mask (serve H input prompt (execute H) fuel reader) := by
  induction fuel generalizing reader with
  | zero => exact survives_finish nofun
  | succ fuel ih =>
      rw [serve_succ]
      refine survives_bind (spared_attempt H hcalm input prompt reader) fun read => ?_
      obtain ⟨outcome, reader'⟩ := read
      cases outcome with
      | failed errno => exact survives_fail _
      | endOfInput => exact spared_pollSignals H
      | interrupted =>
          refine survives_bind (spared_pollSignals H) fun _ => survives_get fun sh hsh => ?_
          exact survives_ite (survives_bind (spared_print H _) fun _ => ih reader') (ih reader')
            sh hsh
      | line text =>
          refine survives_bind (spared_pollSignals H) fun _ => ?_
          refine survives_bind (spared_reporting H (spared_execute H hcalm text)) fun _ => ?_
          exact ih reader'

end Lines

end Shell

end Conch
