import Conch.Proofs.Shell.Composition
import Conch.Proofs.Signals.Guards

/-!
# Shells to which no signal comes

On a host that is `SendsNoSignal` no signal arrives, and looking for one changes nothing.  A shell
is `Idle` if it has acted on all the signals that it has noted and none is due.  On such a host it
stays idle whatever it does with a line (`idle_execute`): the guards of a launch let nothing through
when they are given up.  So such a shell finds nothing when it takes in signals, and nothing to fold
into its memory when it polls, and all that it does before a line is to tell its user about
background jobs (`prepare_of_idle`).
-/

namespace Conch

/-- No signal arrives, and looking for one changes nothing. -/
def Host.SendsNoSignal {σ : Type} (H : Host σ) : Prop :=
  ∀ world, H.arrivals world = ([], world)

namespace SignalState

variable {s s' s'' : SignalState}

/-- A signal that is not due is not released, and the process stays as it is. -/
theorem release_of_not_due {c : ControlSignal} (h : s.isDue c = false) :
    s.release c = .alive s := by
  rw [release, ← isDue, h]
  rfl

/-- Where no signal is due there is none to let go. -/
theorem releaseAll_of_not_due (h : ∀ c, s.isDue c = false) : s.releaseAll = .alive s := by
  simp [releaseAll, release_of_not_due, h, Fate.andThen]

/-- Nothing has been noted, and no signal waits that did not wait before. -/
structure NotesNothing (s s' : SignalState) : Prop where
  caught : s'.caught = s.caught
  stops : s'.stops = s.stops
  stopsTaken : s'.stopsTaken = s.stopsTaken
  pending : ∀ c, s'.pending.get c = true → s.pending.get c = true

theorem NotesNothing.refl (s : SignalState) : NotesNothing s s :=
  ⟨rfl, rfl, rfl, fun _ => id⟩

theorem NotesNothing.trans (h : NotesNothing s s') (h' : NotesNothing s' s'') :
    NotesNothing s s'' where
  caught := h'.caught.trans h.caught
  stops := h'.stops.trans h.stops
  stopsTaken := h'.stopsTaken.trans h.stopsTaken
  pending c hpending := h.pending c (h'.pending c hpending)

/-- To install handlers is to forget a signal at most. -/
theorem notesNothing_install (set : HandlerSet) : NotesNothing s (s.install set) := by
  have hone : ∀ (s : SignalState) c d, NotesNothing s (s.installOne c d) := by
    intro s c d
    refine ⟨rfl, rfl, rfl, fun other => ?_⟩
    unfold installOne
    dsimp only
    split
    · by_cases hsame : other = c
      · simp [hsame]
      · rw [PerSignal.get_set_of_ne _ _ hsame]
        exact id
    · exact id
  have hall : ∀ (cs : List ControlSignal) (s : SignalState),
      NotesNothing s (cs.foldl (fun s c => s.installOne c (set.disposition c)) s) := by
    intro cs
    induction cs with
    | nil => exact .refl
    | cons c cs ih => exact fun s => (hone s c _).trans (ih _)
  exact hall ControlSignal.all s

/-- With the mask that there was before, nothing more is due. -/
theorem NotesNothing.isDue (h : NotesNothing s s') {c : ControlSignal} (hdue : s.isDue c = false) :
    SignalState.isDue { s' with blocked := s.blocked } c = false := by
  unfold SignalState.isDue at hdue ⊢
  cases hpending : s'.pending.get c with
  | false => rfl
  | true =>
      rw [h.pending c hpending] at hdue
      simpa using hdue

end SignalState

namespace Shell

variable {σ α : Type}

/-- The shell has acted on all the signals that it has noted, and none is due. -/
structure Idle (sh : Shell σ) : Prop where
  caught : sh.signals.caught = false
  stops : sh.signals.stopsTaken = sh.signals.stops
  forgotten : sh.interpreter.signalCaught = false
  due : ∀ c, sh.signals.isDue c = false

/-- Whether a shell is idle does not depend on its world, its jobs, or the status of the last
foreground command. -/
theorem Idle.of_same {sh sh' : Shell σ} (h : Idle sh) (hsignals : sh'.signals = sh.signals)
    (hforgotten : sh'.interpreter.signalCaught = sh.interpreter.signalCaught) : Idle sh' where
  caught := hsignals ▸ h.caught
  stops := hsignals ▸ h.stops
  forgotten := hforgotten.trans h.forgotten
  due := hsignals ▸ h.due

/-- To stay idle. -/
def idling (σ : Type) : Frame σ :=
  .ofInvariant Idle

variable {H : Host σ} {sh : Shell σ}

theorem idle_notified (h : Idle sh) : Idle (notified H sh) :=
  h.of_same rfl rfl

/-- What a shell does about its user and its own memory leaves it idle. -/
theorem attends_idling : (idling σ).leading.Attends H where
  print _ := Frame.Bounds.leads fun _ h => h.of_same rfl rfl
  notify := Frame.Bounds.leads fun sh h => by
    rw [notify_eq]
    exact idle_notified h
  enter _ := Frame.Bounds.leads fun _ h => h.of_same rfl rfl
  remember _ := Frame.Bounds.leads fun _ h => h.of_same rfl rfl

section Still

variable (hstill : H.arrivals sh.world = ([], sh.world))

include hstill

/-- Where no signal has arrived there is none to take in. -/
theorem takeSignals_of_still : takeSignals H sh = .ok () sh := by
  have hnone : request H.arrivals sh = .ok [] sh := by
    have hrun : request H.arrivals sh =
        .ok (H.arrivals sh.world).1 { sh with world := (H.arrivals sh.world).2 } := rfl
    rw [hrun, hstill]
  rw [takeSignals, bind_of_ok hnone]
  rfl

/-- What is done under a guard is done with the control signals blocked, and if none arrives nothing
else happens. -/
theorem guarded_of_still {action : Act σ α} {a : α} {done : Shell σ}
    (h : action { sh with signals := sh.signals.block } = .ok a done)
    (hquiet : H.arrivals done.world = ([], done.world)) :
    guarded H action sh = (undergo H (done.signals.setBlocked sh.signals.blocked) >>=
      fun _ => pure a) done := by
  have hget : (get : Act σ (Shell σ)) sh = .ok sh sh := rfl
  have hblock : (modify fun sh => { sh with signals := sh.signals.block } : Act σ Unit) sh =
      .ok () { sh with signals := sh.signals.block } := rfl
  have hbefore : takeSignals H { sh with signals := sh.signals.block } =
      .ok () { sh with signals := sh.signals.block } := takeSignals_of_still hstill
  rw [guarded, bind_of_ok hget, bind_of_ok hblock, bind_of_ok hbefore, bind_of_ok h,
    bind_of_ok (takeSignals_of_still hquiet)]
  rfl

/-- A service that is used under a guard is used, and if no signal arrives that is all. -/
theorem guarded_request_of_still (hdue : ∀ c, sh.signals.isDue c = false) (f : σ → α × σ)
    (hquiet : H.arrivals (f sh.world).2 = ([], (f sh.world).2)) :
    guarded H (request f) sh = .ok (f sh.world).1 { sh with world := (f sh.world).2 } := by
  have hused : request f { sh with signals := sh.signals.block } =
      .ok (f sh.world).1 { sh with signals := sh.signals.block, world := (f sh.world).2 } := rfl
  rw [guarded_of_still hstill hused hquiet]
  have hback : sh.signals.block.setBlocked sh.signals.blocked = .alive sh.signals :=
    SignalState.releaseAll_of_not_due hdue
  dsimp only
  rw [hback]
  rfl

/-- Where no signal is due and none arrives, the shell creates a process with nothing in between:
only what was to come of it has. -/
theorem create_of_still (hdue : ∀ c, sh.signals.isDue c = false) (command : Command)
    (hquiet : ∀ launch, H.arrivals (H.fork launch sh.world).2 =
      ([], (H.fork launch sh.world).2)) :
    ∃ pid sh', create H command sh = .ok pid sh' ∧ sh.signals.NotesNothing sh'.signals ∧
      sh'.signals.blocked = sh.signals.blocked ∧ sh'.interpreter = sh.interpreter := by
  let begun := sh.signals.block.install (.child command.background)
  let back := begun.install .interactive
  let asked := H.fork ⟨command, begun⟩ sh.world
  have hblocked : sh.signals.NotesNothing sh.signals.block := ⟨rfl, rfl, rfl, fun _ => id⟩
  have hhushed : sh.signals.NotesNothing back :=
    (hblocked.trans (SignalState.notesNothing_install _)).trans (SignalState.notesNothing_install _)
  have hswap : ∀ (set : HandlerSet) (sh : Shell σ),
      (modify fun sh => { sh with signals := sh.signals.install set } : Act σ Unit) sh =
        .ok () { sh with signals := sh.signals.install set } := fun _ _ => rfl
  have hget : ∀ sh, (get : Act σ (Shell σ)) sh = .ok sh sh := fun _ => rfl
  have hfork : request (H.fork ⟨command, begun⟩) { sh with signals := begun } =
      .ok asked.1 { sh with signals := begun, world := asked.2 } := rfl
  have hbefore : takeSignals H { sh with signals := begun } = .ok () { sh with signals := begun } :=
    takeSignals_of_still hstill
  have hafterwards : takeSignals H { sh with signals := begun, world := asked.2 } =
      .ok () { sh with signals := begun, world := asked.2 } := takeSignals_of_still (hquiet _)
  let after := { back with blocked := sh.signals.blocked }
  have hafter : sh.signals.NotesNothing after :=
    ⟨hhushed.caught, hhushed.stops, hhushed.stopsTaken, hhushed.pending⟩
  refine ⟨asked.1, { sh with signals := after, world := asked.2 }, ?_, hafter, rfl, rfl⟩
  refine (@guarded_of_still σ _ H sh hstill _ asked.1
    { sh with signals := back, world := asked.2 } ?_ (hquiet _)).trans ?_
  · rw [bind_of_ok (hswap _ _), bind_of_ok hbefore, bind_of_ok (hget _), bind_of_ok hfork,
      bind_of_ok hafterwards, bind_of_ok (hswap _ _)]
    rfl
  · have hback : back.setBlocked sh.signals.blocked = .alive after :=
      SignalState.releaseAll_of_not_due fun c => hhushed.isDue (hdue c)
    dsimp only
    rw [hback]
    rfl

end Still

section Signals

variable (hsilent : H.SendsNoSignal)

include hsilent

/-- On a host that sends no signals there is nothing to take in, and the shell stays as it is. -/
theorem takeSignals_of_silent (sh : Shell σ) : takeSignals H sh = .ok () sh :=
  takeSignals_of_still (hsilent sh.world)

/-- A service that is used under a guard is used, and that is all. -/
theorem guarded_request (hdue : ∀ c, sh.signals.isDue c = false) (f : σ → α × σ) :
    guarded H (request f) sh = .ok (f sh.world).1 { sh with world := (f sh.world).2 } :=
  guarded_request_of_still (hsilent _) hdue f (hsilent _)

/-- A shell that creates a process, on a host on which no signal arrives. -/
theorem create_of_silent (hdue : ∀ c, sh.signals.isDue c = false) (command : Command) :
    ∃ pid sh', create H command sh = .ok pid sh' ∧ sh.signals.NotesNothing sh'.signals ∧
      sh'.signals.blocked = sh.signals.blocked ∧ sh'.interpreter = sh.interpreter :=
  create_of_still (hsilent _) hdue command fun _ => hsilent _

/-- A shell that is idle and creates a process is idle afterwards. -/
theorem idle_create (command : Command) : (idling σ).leading.Has (create H command) := by
  intro sh done hreached hidle
  obtain ⟨pid, sh', hrun, hhushed, hblocked, hinterpreter⟩ :=
    create_of_silent hsilent hidle.due command
  rw [hrun] at hreached
  obtain rfl := Option.some.inj hreached
  refine ⟨hhushed.caught.trans hidle.caught, ?_, ?_, fun c => ?_⟩
  · rw [hhushed.stopsTaken, hhushed.stops]
    exact hidle.stops
  · rw [hinterpreter]
    exact hidle.forgotten
  · have hdue := hhushed.isDue (hidle.due c)
    rwa [← hblocked] at hdue

/-- To wait for a child under a guard leaves the shell idle, since no signal comes in that could be
due. -/
theorem idle_wait (pid : ProcessId) :
    (idling σ).leading.Has (guarded H (request (H.wait pid))) := by
  intro sh done hreached hidle
  rw [guarded_request hsilent hidle.due] at hreached
  obtain rfl := Option.some.inj hreached
  exact hidle.of_same rfl rfl

/-- **Whatever an idle shell does with a line, it is idle afterwards**, if it goes on. -/
theorem idle_execute (line : Text) : (idling σ).leading.Has (execute H line) := by
  refine Compositional.has_execute ?_ (fun command => ?_) line
  · exact fun _ => Frame.Bounds.leads fun _ h => h.of_same rfl rfl
  · exact Compositional.has_launch attends_idling (idle_create hsilent command) (idle_wait hsilent)

/-- A shell that is idle and executes a line is idle afterwards, also if an error has been
reported. -/
theorem idle_reporting {line : Text} {sh' : Shell σ} (hidle : Idle sh)
    (h : reporting H (execute H line) sh = .ok () sh') : Idle sh' := by
  have hexecute := idle_execute hsilent line sh
  rcases hrun : execute H line sh with ⟨⟨⟩, done⟩ | ⟨e | ending, done⟩
  · rw [reporting_of_ok H hrun] at h
    obtain ⟨-, rfl⟩ := EStateM.Result.ok.inj h
    rw [hrun] at hexecute
    exact hexecute _ rfl hidle
  · rw [reporting_of_failed H hrun] at h
    rw [hrun] at hexecute
    cases hrecoverable : e.isRecoverable with
    | true =>
        rw [hrecoverable] at h
        obtain ⟨-, rfl⟩ := EStateM.Result.ok.inj h
        exact (hexecute _ rfl hidle).of_same rfl rfl
    | false =>
        rw [hrecoverable] at h
        cases h
  · rw [reporting, tryCatch_of_error hrun] at h
    cases h

end Signals

/-! ## Before a line -/

section Heed

variable (H)

/-- Act on what has been noted, and forget that it was noted. -/
def heed : Act σ Unit := do
  pollSignals H
  modify fun sh => { sh with interpreter := { sh.interpreter with signalCaught := false } }

/-- A shell that has acted on what it noted is idle, unless a signal is due. -/
theorem heed_ok (sh : Shell σ) (hdue : ∀ c, sh.signals.isDue c = false) :
    ∃ sh', heed H sh = .ok () sh' ∧ Idle sh' := by
  obtain ⟨polled, hpoll, hsignals⟩ := pollSignals_ok H sh
  refine ⟨{ polled with interpreter := { polled.interpreter with signalCaught := false } }, ?_,
    ?_, ?_, rfl, fun c => ?_⟩
  · rw [heed, bind_of_ok hpoll]
    rfl
  · exact congrArg SignalState.caught hsignals
  · rw [hsignals]
  · rw [hsignals]
    exact hdue c

end Heed

/-- A poll finds nothing that the shell has not acted on. -/
theorem pollSignals_of_idle (h : Idle sh) : pollSignals H sh = .ok () sh := by
  have hpoll : pollSignals H sh = times (toggleMode H) (sh.signals.stops - sh.signals.stopsTaken)
      { sh with
        signals := { sh.signals with caught := false, stopsTaken := sh.signals.stops }
        interpreter := { sh.interpreter with
          signalCaught := sh.interpreter.signalCaught || sh.signals.caught } } := rfl
  have hsignals : { sh.signals with caught := false, stopsTaken := sh.signals.stops } =
      sh.signals := by
    rw [← h.caught, ← h.stops]
  rw [hpoll, hsignals, h.stops, h.caught, Nat.sub_self, Bool.or_false]
  rfl

/-- A shell that is idle has nothing to act on. -/
theorem heed_of_idle (h : Idle sh) : heed H sh = .ok () sh := by
  have hforgotten : { sh.interpreter with signalCaught := false } = sh.interpreter := by
    rw [← h.forgotten]
  rw [heed, bind_of_ok (pollSignals_of_idle h)]
  exact congrArg (fun interpreter => EStateM.Result.ok () { sh with interpreter }) hforgotten

/-- Before a line a shell acts on what it has noted and tells its user about background jobs. -/
theorem prepare_of_silent (hsilent : H.SendsNoSignal) {sh' : Shell σ} (h : heed H sh = .ok () sh') :
    prepare H none sh = .ok () (notified H sh') := by
  obtain ⟨⟨⟩, polled, hpoll, hreset⟩ := of_bind_eq_ok h
  rw [prepare, bind_of_ok (takeSignals_of_silent hsilent _), bind_of_ok hpoll, bind_of_ok hreset,
    bind_of_ok (notify_eq H _)]
  exact takeSignals_of_silent hsilent _

end Shell

end Conch
