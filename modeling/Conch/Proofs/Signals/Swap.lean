import Conch.Proofs.Shell.Action
import Conch.Proofs.Signals.Guards

/-!
# What the swap of the handlers does to a signal

A shell that creates a child swaps its handlers for those of the child and back, with the control
signals blocked.  A `SwapWindow` is the time from the first guard to the last: the two sets are
installed in their order, signals are raised at any point, and further guards are taken and given up
around the swap or inside it.  `create_window` finds such a window in every launch of a program.

What the handlers of the shell have heard in the end is `Settled`: nothing was left to the child's
set, and each signal that is heard is heard once, in order.  But not every signal is heard.  The
child's set ignores the stop signal, and the interrupt too if the child runs in the background, and
to install a disposition that ignores a signal is to discard it if it waits.  So a signal that was
raised after the control signals were blocked and before the child's set was installed is lost,
unless it is raised again.

* `run_window`: a window is what waits at its end, and the mask put back;
* `heard_iff_survives`: a signal that was raised is heard exactly if it is raised again whenever it
  was discarded;
* `stop_before_swap_is_lost`: a stop signal that comes too early.
-/

namespace Conch

open SignalStep (installs underGuard Survives)

/-- The time from the first guard to the last, in which a process swaps its handlers for those of a
child and back.  In between the handlers of the child are installed, and then those of the shell,
and other guards are given up in the reverse order before the first one is. -/
structure SwapWindow where
  background : Bool
  inside : List SignalStep
  nested : SignalStep.depth? 0 inside = some 0
  swaps : inside.filter SignalStep.isInstall =
    installs (.child background) ++ installs .interactive

namespace SwapWindow

/-- The window in which nothing but the swap happens. -/
def quiet (background : Bool) : SwapWindow where
  background
  inside := installs (.child background) ++ installs .interactive
  nested := by cases background <;> rfl
  swaps := by cases background <;> rfl

/-- A process after it went through the window. -/
def run (w : SwapWindow) (s : SignalState) : Watch :=
  (Watch.run { fate := .alive s } (.hold :: w.inside)).step .letGo

variable (w : SwapWindow) (s : SignalState)

/-- What the process has come to when the last guard is given up. -/
def beforeRelease : SignalState :=
  w.inside.foldl underGuard s.block

/-- What the process has come to with the mask put back. -/
def unguarded : SignalState :=
  { w.beforeRelease s with blocked := s.blocked }

/-- Through the whole window nothing is delivered; then the mask is put back. -/
theorem run_window :
    w.run s = { Watch.setBlocked ⟨.alive (w.beforeRelease s), [s.blocked], []⟩ s.blocked with
      guards := [] } := by
  have hinside := Watch.run_held w.nested (s := s.block) rfl [s.blocked] []
  rw [run, Watch.run_cons]
  exact congrArg (Watch.step · .letGo) hinside

/-- What has become of the process in the end is what the release of the mask makes of what had
gathered before it. -/
theorem fate_run : (w.run s).fate = (w.beforeRelease s).setBlocked s.blocked := by
  rw [run_window]
  exact Watch.fate_setBlocked _ _

/-- The shell's own handlers are in force in the end. -/
theorem action_beforeRelease : (w.beforeRelease s).action = .const .handler := by
  rw [beforeRelease, SignalStep.foldl_underGuard_action, w.swaps]
  cases w.background <;> rfl

/-- A signal that was raised waits in the end exactly if it survives. -/
theorem pending_beforeRelease {c : ControlSignal} (hraised : .raise c ∈ w.inside) :
    (w.beforeRelease s).pending.get c = true ↔ Survives c w.inside :=
  SignalStep.pending_foldl_underGuard s.block hraised

/-- A signal that the child's set does not ignore survives. -/
theorem survives_of_not_ignored {c : ControlSignal}
    (h : (HandlerSet.child w.background).disposition c ≠ .ignore) : Survives c w.inside := by
  intro before after hsplit
  have hmem : SignalStep.install c .ignore ∈ w.inside.filter SignalStep.isInstall := by
    rw [hsplit]
    simp [SignalStep.isInstall]
  rw [w.swaps] at hmem
  cases c <;> cases hb : w.background <;>
    simp_all [installs, ControlSignal.all, HandlerSet.disposition]

end SwapWindow

/-- What the shell's handlers have done to a process that started from `s`.  Only they have run, and
each signal was heard once at most, the lowest first.  The terminate signal was announced and has
ended the process; otherwise it lives, with the mask and the handlers it had, and what the handlers
count has been counted. -/
structure Watch.Settled (s : SignalState) (outcome : Watch) : Prop where
  handlers : ∀ d ∈ outcome.delivered, d.2 = .handler
  ordered : (outcome.delivered.map fun d => d.1.number).Pairwise (· < ·)
  ended : (.terminate, .handler) ∈ outcome.delivered → outcome.fate = .killed .terminate true
  lived : (.terminate, .handler) ∉ outcome.delivered → ∃ s', outcome.fate = .alive s' ∧
    s'.action = .const .handler ∧ s'.blocked = s.blocked ∧
    s'.caught = (s.caught || !outcome.delivered.isEmpty) ∧
    s'.stops = s.stops + outcome.delivered.count (.stop, .handler) ∧
    s'.stopsTaken = s.stopsTaken

namespace SwapWindow

variable (w : SwapWindow) (s : SignalState)

/-- What is heard in the end, and what has become of the process. -/
theorem run_eq :
    w.run s =
      { fate :=
          if (w.unguarded s).isDue .terminate then .killed .terminate true
          else .alive { w.unguarded s with
            pending := .ofFn fun c => (w.beforeRelease s).pending.get c && s.blocked.get c
            caught := s.caught || (w.unguarded s).isDue .interrupt || (w.unguarded s).isDue .stop
            stops := s.stops + ((w.unguarded s).isDue .stop).toNat }
        delivered := (Watch.heard (w.unguarded s)).map fun c => (c, .handler) } := by
  obtain ⟨-, hcaught, hstops, -⟩ := SignalStep.foldl_underGuard_frame s.block w.inside
  have hcaught : (w.beforeRelease s).caught = s.caught := hcaught
  have hstops : (w.beforeRelease s).stops = s.stops := hstops
  rw [run_window, Watch.setBlocked_of_handled (w.action_beforeRelease s), hcaught, hstops]
  rfl

/-- Each signal of the process is heard or not, and when it is heard it is by the shell. -/
theorem mem_delivered {c : ControlSignal} :
    (c, .handler) ∈ (w.run s).delivered ↔ c ∈ Watch.heard (w.unguarded s) := by
  rw [run_eq]
  simp

/-- What comes first is heard if it is due, and so is what comes after a terminate signal if there
is none. -/
theorem mem_heard {s : SignalState} {c : ControlSignal}
    (hfirst : c.number ≤ ControlSignal.terminate.number ∨ s.isDue .terminate = false) :
    c ∈ Watch.heard s ↔ s.isDue c = true := by
  have hall : c ∈ ControlSignal.all := by cases c <;> decide
  rw [Watch.heard, List.mem_filter, Bool.and_eq_true]
  constructor
  · exact fun h => h.2.1
  · intro hdue
    exact ⟨hall, hdue, by simpa using hfirst⟩

/-- The terminate signal is delivered if it waits in the end and is not blocked. -/
theorem terminate_mem_delivered :
    (.terminate, .handler) ∈ (w.run s).delivered ↔ (w.unguarded s).isDue .terminate = true :=
  (w.mem_delivered s).trans (mem_heard (.inl (Int.le_refl _)))

/-- **The shell's handlers hear what is heard**, each signal once and the lowest first, and they do
what they are there for. -/
theorem settled : (w.run s).Settled s := by
  have hdelivered : (w.run s).delivered =
      (Watch.heard (w.unguarded s)).map fun c => (c, .handler) := by
    rw [run_eq]
  refine ⟨fun d hd => ?_, ?_, fun hheard => ?_, fun hunheard => ?_⟩
  · rw [hdelivered] at hd
    obtain ⟨c, -, rfl⟩ := List.mem_map.mp hd
    rfl
  · have hall : (ControlSignal.all.map ControlSignal.number).Pairwise (· < ·) := by decide
    rw [hdelivered, List.map_map]
    exact hall.sublist (List.filter_sublist.map _)
  · rw [run_eq]
    exact if_pos ((w.terminate_mem_delivered s).mp hheard)
  · have hnot : (w.unguarded s).isDue .terminate = false := by
      rwa [terminate_mem_delivered, Bool.not_eq_true] at hunheard
    have hframe := SignalStep.foldl_underGuard_frame s.block w.inside
    refine ⟨_, (congrArg Watch.fate (w.run_eq s)).trans (if_neg (by simp [hnot])),
      w.action_beforeRelease s, rfl, ?_, ?_, hframe.2.2.2⟩
    · rw [hdelivered, Watch.heard_eq, hnot]
      cases (w.unguarded s).isDue .interrupt <;> cases (w.unguarded s).isDue .stop <;> simp
    · rw [hdelivered, Watch.heard_eq, hnot]
      cases (w.unguarded s).isDue .interrupt <;> cases (w.unguarded s).isDue .stop <;> simp

end SwapWindow

/-! ## The launch of a program -/

namespace Shell

open EStateM (Result)

variable {σ α : Type} (H : Host σ) {sh sh' : Shell σ}

/-- Signals that are taken in under a guard come to wait. -/
theorem signals_of_raiseAll {s s' : SignalState} (hheld : s.blocked = .const true)
    {cs : List ControlSignal} (h : s.raiseAll cs = .alive s') :
    s' = (cs.map SignalStep.raise).foldl underGuard s ∧ s'.blocked = .const true := by
  rw [SignalStep.raiseAll_eq hheld] at h
  obtain rfl := Fate.alive.inj h
  exact ⟨rfl, (SignalStep.foldl_underGuard_frame s _).1.trans hheld⟩

/-- **The launch of a program is a window** for the control signals of the shell. -/
theorem create_window {command : Command} {pid : Option ProcessId}
    (h : create H command sh = .ok pid sh') :
    ∃ w : SwapWindow, w.background = command.background ∧
      (w.run sh.signals).fate = .alive sh'.signals := by
  obtain ⟨begun, ready, drained, last, htake, hready, -, hdrained, hlast, hadjust⟩ :=
    of_create_eq_ok H h
  obtain ⟨early, hearly⟩ := raised_of_takeSignals H htake
  obtain ⟨before, hbefore⟩ := raised_of_takeSignals H hready
  obtain ⟨after, hafter⟩ := raised_of_takeSignals H hdrained
  obtain ⟨late, hlate⟩ := raised_of_takeSignals H hlast
  obtain ⟨released, hmask, rfl⟩ := of_adjust_eq_ok H hadjust
  -- Between the guard and its release the mask never changes, so all that comes in waits.
  obtain ⟨hbegun, hheld⟩ := signals_of_raiseAll rfl hearly
  have harmed : (begun.signals.install (.child command.background)).blocked = .const true := hheld
  obtain ⟨hready, hheld⟩ := signals_of_raiseAll harmed hbefore
  obtain ⟨hdrained, hheld⟩ := signals_of_raiseAll hheld hafter
  have hback : (drained.signals.install .interactive).blocked = .const true := hheld
  obtain ⟨hlast, -⟩ := signals_of_raiseAll hback hlate
  let w : SwapWindow :=
    { background := command.background
      inside := early.map .raise ++ (installs (.child command.background) ++
        (before.map .raise ++ (after.map .raise ++ (installs .interactive ++ late.map .raise))))
      nested := by
        rw [SignalStep.depth?_raise_append, SignalStep.depth?_installs_append,
          SignalStep.depth?_raise_append, SignalStep.depth?_raise_append,
          SignalStep.depth?_installs_append, ← List.append_nil (late.map _),
          SignalStep.depth?_raise_append]
        rfl
      swaps := by
        simp only [List.filter_append, SignalStep.filter_isInstall_raise,
          SignalStep.filter_isInstall_installs, List.nil_append, List.append_nil] }
  refine ⟨w, rfl, ?_⟩
  have hbrink : w.beforeRelease sh.signals = last.signals := by
    simp only [SwapWindow.beforeRelease, w, List.foldl_append]
    rw [hlast, SignalStep.install_eq, hdrained, hready, SignalStep.install_eq, hbegun]
  rw [SwapWindow.fate_run, hbrink]
  exact hmask

end Shell

/-! ## The result -/

namespace SwapWindow

/-- **A signal raised in the window is heard exactly if it is raised again whenever it was
discarded.**  Whatever the mask, the guards, the signals and the moments they come at are: the
shell's handlers hear, once each and the lowest first, the signals that survive and that the mask of
before the window does not block, but for what comes after a terminate signal; what that mask blocks
goes on waiting if it survives; nothing is left to the child's set.  The signals that the child's
set does not ignore always survive.  The launch of a program by a shell is such a window, and so is
the plain swap there and back. -/
theorem heard_iff_survives (w : SwapWindow) (s : SignalState) :
    (w.run s).Settled s ∧
    (∀ c, .raise c ∈ w.inside →
      (s.blocked.get c = false →
        c.number ≤ ControlSignal.terminate.number ∨
          (.terminate, .handler) ∉ (w.run s).delivered →
        ((c, .handler) ∈ (w.run s).delivered ↔ Survives c w.inside)) ∧
      (s.blocked.get c = true → ∀ s', (w.run s).fate = .alive s' →
        (s'.pending.get c = true ↔ Survives c w.inside))) ∧
    (∀ c, (HandlerSet.child w.background).disposition c ≠ .ignore → Survives c w.inside) ∧
    (∀ (σ : Type) (H : Host σ) (command : Command) (sh sh' : Shell σ) (pid : Option ProcessId),
      Shell.create H command sh = .ok pid sh' → ∃ w : SwapWindow,
        w.background = command.background ∧ (w.run sh.signals).fate = .alive sh'.signals) ∧
    ∀ background, ((quiet background).run s).fate =
      (s.enterChild background).leaveChild s.blocked := by
  have hdue : ∀ c, (w.unguarded s).isDue c =
      ((w.beforeRelease s).pending.get c && !s.blocked.get c) := fun _ => rfl
  refine ⟨w.settled s, fun c hraised => ⟨fun hopen hfirst => ?_, fun hblocked s' halive => ?_⟩,
    fun c => w.survives_of_not_ignored, fun σ H command sh sh' pid => Shell.create_window H,
    fun background => (quiet background).fate_run s⟩
  · rw [terminate_mem_delivered, Bool.not_eq_true] at hfirst
    rw [mem_delivered, mem_heard hfirst, hdue, hopen, Bool.not_false, Bool.and_true]
    exact w.pending_beforeRelease s hraised
  · rw [run_eq] at halive
    split at halive
    · exact nomatch halive
    · obtain rfl := Fate.alive.inj halive
      rw [PerSignal.get_ofFn, hblocked, Bool.and_true]
      exact w.pending_beforeRelease s hraised

/-- A window in which a stop signal is raised under an outer guard, before the swap. -/
def earlyStop : SwapWindow where
  background := false
  inside := .raise .stop :: .hold ::
    (installs (.child false) ++ installs .interactive ++ [.letGo])
  nested := rfl
  swaps := rfl

/-- Raised too early the stop signal is lost: nothing is heard, and the shell is as it was. -/
theorem stop_before_swap_is_lost :
    let s := SignalState.install {} .interactive
    SignalStep.raise .stop ∈ earlyStop.inside ∧ s.blocked.get .stop = false ∧
      (earlyStop.run s).delivered = [] ∧ (earlyStop.run s).fate = .alive s := by
  refine ⟨List.mem_cons_self, rfl, rfl, rfl⟩

end SwapWindow

end Conch
