import Conch.Proofs.Signals.Guards

/-!
# Guards within guards

A guard keeps the mask that it has found and puts it back as it was, so guards that are given up in
the reverse order nest: at any depth but the outermost everything is blocked, and at the outermost
the mask is the one that the process had in the beginning (`atDepth_run`).  A guard within another
one therefore finds and leaves everything blocked, and giving it up delivers nothing.

Giving up the outermost guard delivers what was raised under it: each signal once, the lowest number
first, to the disposition that is installed by then, until one of them is fatal (`foldl_release`).
-/

namespace Conch

/-- Does a signal that meets the disposition end the process? -/
def Disposition.isFatal (d : Disposition) (c : ControlSignal) : Bool :=
  match d with
  | .default => c != .stop
  | .ignore => false
  | .handler => c == .terminate

/-- The control signals have different numbers, so the number tells which one it is. -/
theorem ControlSignal.eq_of_number_eq {c d : ControlSignal} (h : c.number = d.number) : c = d := by
  cases c <;> cases d <;> first | rfl | exact absurd h (by decide)

namespace SignalState

/-! ## Delivery -/

variable {s t : SignalState} {c : ControlSignal} {cs : List ControlSignal}

/-- Is the signal fatal? -/
def isFatal (s : SignalState) (c : ControlSignal) : Bool :=
  (s.action.get c).isFatal c

/-- A fatal signal kills the process that it is delivered to, with an announcement or without. -/
theorem deliver_of_fatal (h : s.isFatal c = true) :
    ∃ announced, s.deliver c = .killed c announced := by
  unfold isFatal at h
  unfold deliver
  cases hd : s.action.get c <;> rw [hd] at h <;> cases c <;>
    first | exact ⟨_, rfl⟩ | exact nomatch h

/-- A delivery that is not fatal leaves alone what decides about others. -/
theorem deliver_of_not_fatal (h : s.isFatal c = false) :
    ∃ t, s.deliver c = .alive t ∧ t.blocked = s.blocked ∧ t.pending = s.pending ∧
      t.action = s.action := by
  unfold isFatal at h
  unfold deliver
  cases hd : s.action.get c <;> rw [hd] at h <;> cases c <;>
    first | exact ⟨_, rfl, rfl, rfl, rfl⟩ | exact nomatch h

/-- No signal waits that is not blocked. -/
def Quiescent (s : SignalState) : Prop :=
  ∀ c, s.isDue c = false

/-- A signal that is raised leaves the mask, and it comes to wait only if it is blocked. -/
theorem of_raise_eq_alive (h : s.raise c = .alive t) :
    t.blocked = s.blocked ∧ ∀ d, t.isDue d = s.isDue d := by
  rw [raise] at h
  cases hblocked : s.blocked.get c with
  | true =>
      rw [hblocked, if_pos rfl] at h
      obtain rfl := Fate.alive.inj h
      refine ⟨rfl, fun d => ?_⟩
      by_cases hd : d = c
      · simp [isDue, hd, hblocked]
      · simp [isDue, PerSignal.get_set_of_ne _ _ hd]
  | false =>
      rw [hblocked, if_neg Bool.false_ne_true] at h
      cases hfatal : s.isFatal c with
      | true =>
          obtain ⟨announced, hdeliver⟩ := deliver_of_fatal hfatal
          cases hdeliver.symm.trans h
      | false =>
          obtain ⟨t', hdeliver, hmask, hpending, -⟩ := deliver_of_not_fatal hfatal
          obtain rfl := Fate.alive.inj (hdeliver.symm.trans h)
          exact ⟨hmask, fun d => by rw [isDue, isDue, hmask, hpending]⟩

/-- To install a disposition makes nothing due: at most it discards a signal that waits. -/
theorem quiescent_installOne (hquiet : s.Quiescent) (c : ControlSignal) (d : Disposition) :
    (s.installOne c d).Quiescent := by
  intro e
  have he := hquiet e
  by_cases hd : d = .ignore
  · by_cases hec : e = c
    · simp [isDue, installOne, hd, hec]
    · simpa [isDue, installOne, hd, PerSignal.get_set_of_ne _ _ hec] using he
  · simpa [isDue, installOne, hd] using he

/-! ## Release -/

/-- The signals of a list that a process hears: those that are due, up to the first fatal one. -/
def heardOf (s : SignalState) : List ControlSignal → List ControlSignal
  | [] => []
  | c :: cs =>
    if s.isDue c then if s.isFatal c then [c] else c :: heardOf s cs
    else heardOf s cs

/-- A process hears only signals of the list, each once and in its order. -/
theorem heardOf_sublist (s : SignalState) (cs : List ControlSignal) :
    (s.heardOf cs).Sublist cs := by
  fun_induction heardOf s cs with
  | case1 => exact List.Sublist.refl []
  | case2 c cs _ _ => exact (List.nil_sublist cs).cons_cons c
  | case3 c cs _ _ ih => exact ih.cons_cons c
  | case4 c cs _ ih => exact ih.cons c

/-- In a list that is sorted the first fatal signal is the lowest. -/
theorem mem_heardOf (hsorted : cs.Pairwise fun c d => c.number < d.number) :
    c ∈ s.heardOf cs ↔ c ∈ cs ∧ s.isDue c = true ∧
      ∀ d ∈ cs, d.number < c.number → s.isDue d = true → s.isFatal d = false := by
  fun_induction heardOf s cs with
  | case1 => simp
  | case2 first cs hdue hfatal =>
      obtain ⟨hfirst, -⟩ := List.pairwise_cons.mp hsorted
      constructor
      · intro hc
        obtain rfl := List.mem_singleton.mp hc
        refine ⟨List.mem_cons_self, hdue, fun d hd hlower => ?_⟩
        rcases List.mem_cons.mp hd with rfl | hd
        · exact absurd hlower (Int.lt_irrefl _)
        · exact absurd hlower (Int.lt_asymm (hfirst d hd))
      · rintro ⟨hc, -, hlower⟩
        rcases List.mem_cons.mp hc with rfl | hc
        · exact List.mem_cons_self
        · have hnone := hlower first List.mem_cons_self (hfirst c hc) hdue
          exact nomatch hfatal.symm.trans hnone
  | case3 first cs hdue hfatal ih =>
      obtain ⟨hfirst, hrest⟩ := List.pairwise_cons.mp hsorted
      rw [List.mem_cons, List.mem_cons, ih hrest]
      constructor
      · rintro (rfl | ⟨hc, hcdue, hlower⟩)
        · refine ⟨.inl rfl, hdue, fun d hd hless => ?_⟩
          rcases List.mem_cons.mp hd with rfl | hd
          · exact absurd hless (Int.lt_irrefl _)
          · exact absurd hless (Int.lt_asymm (hfirst d hd))
        · refine ⟨.inr hc, hcdue, fun d hd hless hddue => ?_⟩
          rcases List.mem_cons.mp hd with rfl | hd
          · exact Bool.not_eq_true _ ▸ hfatal
          · exact hlower d hd hless hddue
      · rintro ⟨rfl | hc, hcdue, hlower⟩
        · exact .inl rfl
        · exact .inr ⟨hc, hcdue, fun d hd => hlower d (List.mem_cons_of_mem _ hd)⟩
  | case4 first cs hdue ih =>
      obtain ⟨-, hrest⟩ := List.pairwise_cons.mp hsorted
      rw [ih hrest, List.mem_cons]
      constructor
      · rintro ⟨hc, hcdue, hlower⟩
        refine ⟨.inr hc, hcdue, fun d hd hless hddue => ?_⟩
        rcases List.mem_cons.mp hd with rfl | hd
        · exact absurd hddue hdue
        · exact hlower d hd hless hddue
      · rintro ⟨rfl | hc, hcdue, hlower⟩
        · exact absurd hcdue hdue
        · exact ⟨hc, hcdue, fun d hd => hlower d (List.mem_cons_of_mem _ hd)⟩

/-- What is heard depends on what is due and what is installed. -/
theorem heardOf_congr (haction : t.action = s.action) (hdue : ∀ c ∈ cs, t.isDue c = s.isDue c) :
    t.heardOf cs = s.heardOf cs := by
  induction cs with
  | nil => rfl
  | cons c cs ih =>
      have hrest := ih fun d hd => hdue d (List.mem_cons_of_mem c hd)
      rw [heardOf, heardOf, isFatal, isFatal, haction, hdue c List.mem_cons_self, hrest]

/-- The process after it has heard a signal and lives on: this signal does not wait any more, and
nothing else has changed that decides about the others. -/
structure Hears (s : SignalState) (c : ControlSignal) (t : SignalState) : Prop where
  mask : t.blocked = s.blocked
  action : t.action = s.action
  self : t.isDue c = false
  others : ∀ d, d ≠ c → t.isDue d = s.isDue d

/-- **What one release does**: nothing to a signal that is not due; a fatal signal that is due
kills, and another one is heard. -/
theorem release_cases (s : SignalState) (c : ControlSignal) :
    (s.isDue c = false ∧ s.release c = .alive s) ∨
    (s.isDue c = true ∧ s.isFatal c = true ∧ ∃ announced, s.release c = .killed c announced) ∨
    (s.isDue c = true ∧ s.isFatal c = false ∧ ∃ t, s.release c = .alive t ∧ s.Hears c t) := by
  let before : SignalState := { s with pending := s.pending.set c false }
  have hrelease : s.release c = if s.isDue c then before.deliver c else .alive s := rfl
  rw [hrelease]
  cases hdue : s.isDue c with
  | false => exact .inl ⟨rfl, rfl⟩
  | true =>
      cases hfatal : s.isFatal c with
      | true => exact .inr (.inl ⟨rfl, rfl, deliver_of_fatal (s := before) hfatal⟩)
      | false =>
          obtain ⟨t, halive, hmask, hpending, haction⟩ := deliver_of_not_fatal (s := before) hfatal
          refine .inr (.inr ⟨rfl, rfl, t, halive, hmask, haction, ?_, fun d hd => ?_⟩)
          · simp [isDue, hpending, before]
          · rw [isDue, isDue, hpending, hmask, PerSignal.get_set_of_ne _ _ hd]

/-- What becomes of a process when the signals of a list are released.  If none of those that it
hears is fatal it lives, and then none of them is due any more; if one of them is, it dies of it. -/
inductive Released (s : SignalState) (cs : List ControlSignal) : Fate → Prop where
  | lives {t : SignalState} (hmask : t.blocked = s.blocked)
      (hnone : ∀ c ∈ s.heardOf cs, s.isFatal c = false)
      (hleft : ∀ c, t.isDue c = true → s.isDue c = true ∧ c ∉ cs) : Released s cs (.alive t)
  | dies {c : ControlSignal} {announced : Bool} (hheard : c ∈ s.heardOf cs)
      (hfatal : s.isFatal c = true) : Released s cs (.killed c announced)

variable {fate : Fate}

/-- A signal that is not due changes nothing when it is its turn. -/
theorem released_skip (hdue : s.isDue c = false) (h : s.Released cs fate) :
    s.Released (c :: cs) fate := by
  have hheard : s.heardOf (c :: cs) = s.heardOf cs := by simp [heardOf, hdue]
  cases h with
  | dies hmem hfatal => exact .dies (by rwa [hheard]) hfatal
  | lives hmask hnone hleft =>
      refine .lives hmask (by rwa [hheard]) fun d hd => ?_
      obtain ⟨hbefore, hnot⟩ := hleft d hd
      refine ⟨hbefore, fun hmem => (List.mem_cons.mp hmem).elim ?_ hnot⟩
      rintro rfl
      exact nomatch hdue.symm.trans hbefore

/-- A process that hears a signal and lives on fares with the others as if they had been released
alone. -/
theorem released_hear (hfresh : c ∉ cs) (hdue : s.isDue c = true) (hfatal : s.isFatal c = false)
    (hears : s.Hears c t) (h : t.Released cs fate) :
    s.heardOf (c :: cs) = c :: t.heardOf cs ∧ s.Released (c :: cs) fate := by
  have hsame : t.heardOf cs = s.heardOf cs :=
    heardOf_congr hears.action fun d hd => hears.others d fun h => hfresh (h ▸ hd)
  have hfatals : ∀ d, t.isFatal d = s.isFatal d := fun d => by
    rw [isFatal, isFatal, hears.action]
  have hheard : s.heardOf (c :: cs) = c :: t.heardOf cs := by
    rw [heardOf, hdue, hfatal, hsame]
    rfl
  refine ⟨hheard, ?_⟩
  cases h with
  | dies hmem hends =>
      exact .dies (hheard ▸ List.mem_cons_of_mem c hmem) ((hfatals _).symm.trans hends)
  | lives hmask hnone hleft =>
      refine .lives (hmask.trans hears.mask) ?_ fun d hd => ?_
      · rw [hheard]
        exact List.forall_mem_cons.mpr ⟨hfatal, fun d hd => (hfatals d).symm.trans (hnone d hd)⟩
      · obtain ⟨hbefore, hnot⟩ := hleft d hd
        have hne : d ≠ c := by
          rintro rfl
          exact nomatch hears.self.symm.trans hbefore
        exact ⟨(hears.others d hne).symm.trans hbefore,
          fun hmem => (List.mem_cons.mp hmem).elim hne hnot⟩

end SignalState

namespace Watch

open SignalState

variable {s : SignalState} {c : ControlSignal} {cs : List ControlSignal}

theorem foldl_release_killed (c : ControlSignal) (announced : Bool)
    (guards : List (PerSignal Bool)) (log : List (ControlSignal × Disposition))
    (cs : List ControlSignal) :
    cs.foldl release ⟨.killed c announced, guards, log⟩ = ⟨.killed c announced, guards, log⟩ := by
  induction cs with
  | nil => rfl
  | cons d cs ih => exact ih

/-- **What a process hears** when signals are released one after the other. -/
theorem foldl_release (hnodup : cs.Nodup) (guards : List (PerSignal Bool))
    (log : List (ControlSignal × Disposition)) :
    ∃ fate, cs.foldl release ⟨.alive s, guards, log⟩ =
        ⟨fate, guards, log ++ (s.heardOf cs).map fun c => (c, s.action.get c)⟩ ∧
      s.Released cs fate := by
  induction cs generalizing s log with
  | nil =>
      exact ⟨.alive s, by simp [heardOf], .lives rfl (fun _ h => nomatch h)
        fun c hc => ⟨hc, List.not_mem_nil⟩⟩
  | cons c cs ih =>
      obtain ⟨hfresh, hrest⟩ := List.nodup_cons.mp hnodup
      rw [List.foldl_cons, release_alive]
      rcases release_cases s c with ⟨hdue, hrelease⟩ | ⟨hdue, hfatal, announced, hrelease⟩ |
        ⟨hdue, hfatal, t, hrelease, hears⟩ <;> rw [hrelease, hdue]
      · have hheard : s.heardOf (c :: cs) = s.heardOf cs := by simp [heardOf, hdue]
        obtain ⟨fate, hrun, hreleased⟩ := ih (s := s) hrest log
        refine ⟨fate, ?_, released_skip hdue hreleased⟩
        rw [hheard, ← hrun]
        simp
      · have hheard : s.heardOf (c :: cs) = [c] := by simp [heardOf, hdue, hfatal]
        refine ⟨.killed c announced, ?_, .dies (by simp [hheard]) hfatal⟩
        rw [hheard, foldl_release_killed]
        rfl
      · obtain ⟨fate, hrun, hreleased⟩ := ih (s := t) hrest (log ++ [(c, s.action.get c)])
        obtain ⟨hheard, hall⟩ := released_hear hfresh hdue hfatal hears hreleased
        refine ⟨fate, ?_, hall⟩
        rw [if_pos rfl, hrun, hheard, hears.action]
        simp

/-- The youngest guard is given up by a process that lives. -/
theorem letGo_alive (s : SignalState) (mask : PerSignal Bool) (guards : List (PerSignal Bool))
    (log : List (ControlSignal × Disposition)) :
    ∃ fate, step ⟨.alive s, mask :: guards, log⟩ .letGo =
        ⟨fate, guards, log ++ (heardOf { s with blocked := mask } ControlSignal.all).map
          fun c => (c, s.action.get c)⟩ ∧
      Released { s with blocked := mask } ControlSignal.all fate := by
  have hset : setBlocked ⟨.alive s, mask :: guards, log⟩ mask =
      ControlSignal.all.foldl release ⟨.alive { s with blocked := mask }, mask :: guards, log⟩ := by
    simp [setBlocked, next, ControlSignal.all]
  have hnodup : ControlSignal.all.Nodup := by decide
  obtain ⟨fate, hrun, hreleased⟩ :=
    foldl_release (s := { s with blocked := mask }) hnodup (mask :: guards) log
  refine ⟨fate, ?_, hreleased⟩
  rw [step_letGo, hset, hrun]

/-! ## Depth -/

/-- The mask at a depth, over the one outside of all guards. -/
def maskAt (mask : PerSignal Bool) : Nat → PerSignal Bool
  | 0 => mask
  | _ + 1 => .const true

/-- What the guards at a depth have found. -/
def guardsAt (mask : PerSignal Bool) : Nat → List (PerSignal Bool)
  | 0 => []
  | n + 1 => maskAt mask n :: guardsAt mask n

/-- The process, if it lives, holds as many guards over a mask, and nothing is due without one. -/
def AtDepth (mask : PerSignal Bool) (n : Nat) (w : Watch) : Prop :=
  ∀ s, w.fate = .alive s →
    s.blocked = maskAt mask n ∧ w.guards = guardsAt mask n ∧ (n = 0 → s.Quiescent)

variable {mask : PerSignal Bool} {n m : Nat} {w : Watch}

/-- Whatever happens to a process that has been killed, it stays so. -/
theorem fate_step_killed {announced : Bool} (hkilled : w.fate = .killed c announced)
    (x : SignalStep) : (w.step x).fate = .killed c announced := by
  rw [fate_step, hkilled]
  rfl

/-- Only what happens to a process that lives is to be looked at. -/
theorem atDepth_of_alive {x : SignalStep}
    (h : ∀ s, w.fate = .alive s → AtDepth mask n (w.step x)) : AtDepth mask n (w.step x) := by
  cases hfate : w.fate with
  | alive s => exact h s hfate
  | killed c announced => exact fun s hs => nomatch (fate_step_killed hfate x).symm.trans hs

/-- A signal that is raised does not change how many guards are held, nor the mask. -/
theorem atDepth_raise (h : AtDepth mask n w) (c : ControlSignal) :
    AtDepth mask n (w.step (.raise c)) := by
  refine atDepth_of_alive fun s hs t ht => ?_
  obtain ⟨hmask, hguards, hquiet⟩ := h s hs
  have hraise : s.raise c = .alive t := by
    rw [← ht, fate_step, hs]
    rfl
  have hsame : (w.step (.raise c)).guards = w.guards := by
    simp [step, raise, next, hs]
  obtain ⟨hkept, hdue⟩ := of_raise_eq_alive hraise
  exact ⟨hkept.trans hmask, hsame.trans hguards, fun hn d => (hdue d).trans (hquiet hn d)⟩

/-- A disposition that is installed does not change how many guards are held, nor the mask, and
makes nothing due. -/
theorem atDepth_install (h : AtDepth mask n w) (c : ControlSignal) (d : Disposition) :
    AtDepth mask n (w.step (.install c d)) := by
  refine atDepth_of_alive fun s hs t ht => ?_
  obtain ⟨hmask, hguards, hquiet⟩ := h s hs
  have hinstall : s.installOne c d = t := by
    rw [fate_step, hs] at ht
    exact Fate.alive.inj ht
  have hsame : (w.step (.install c d)).guards = w.guards := by
    simp [step, next, hs]
  subst hinstall
  exact ⟨hmask, hsame.trans hguards, fun hn => quiescent_installOne (hquiet hn) c d⟩

/-- A guard that is taken is one more, finds the mask that was in force, and leaves everything
blocked. -/
theorem atDepth_hold (h : AtDepth mask n w) : AtDepth mask (n + 1) (w.step .hold) := by
  refine atDepth_of_alive fun s hs t ht => ?_
  obtain ⟨hmask, hguards, -⟩ := h s hs
  simp only [step, hs] at ht ⊢
  obtain rfl := Fate.alive.inj ht
  exact ⟨rfl, by rw [guardsAt, hmask, hguards], fun hn => absurd hn (Nat.succ_ne_zero n)⟩

/-- A guard that is given up is one less, and puts back the mask for the depth below; at the
outermost nothing is due any more. -/
theorem atDepth_letGo (h : AtDepth mask (n + 1) w) : AtDepth mask n (w.step .letGo) := by
  refine atDepth_of_alive fun s hs t ht => ?_
  obtain ⟨-, hguards, -⟩ := h s hs
  obtain ⟨fate, guards, log⟩ := w
  obtain rfl : fate = .alive s := hs
  obtain rfl : guards = maskAt mask n :: guardsAt mask n := hguards
  obtain ⟨fate, hstep, hreleased⟩ := letGo_alive s (maskAt mask n) (guardsAt mask n) log
  rw [hstep] at ht ⊢
  obtain rfl : fate = .alive t := ht
  cases hreleased with
  | lives hmask hnone hleft =>
      refine ⟨hmask, rfl, fun _ c => ?_⟩
      cases hdue : t.isDue c with
      | false => rfl
      | true => exact absurd (by cases c <;> decide) (hleft c hdue).2

/-- **The depth at the end of a run** says which mask is in force and what the guards have found. -/
theorem atDepth_run {steps : List SignalStep} (h : AtDepth mask n w)
    (hdepth : SignalStep.depth? n steps = some m) : AtDepth mask m (w.run steps) := by
  induction steps generalizing n w with
  | nil =>
      obtain rfl := Option.some.inj hdepth
      exact h
  | cons x rest ih =>
      rw [run_cons]
      cases x with
      | raise c => exact ih (atDepth_raise h c) hdepth
      | install c d => exact ih (atDepth_install h c d) hdepth
      | hold => exact ih (atDepth_hold h) hdepth
      | letGo =>
          cases n with
          | zero => exact nomatch hdepth
          | succ n => exact ih (atDepth_letGo h) hdepth

end Watch

/-! ## What waits under a guard -/

namespace SignalStep

/-- A signal that nobody has raised does not come to wait. -/
theorem raised_of_pending {c : ControlSignal} {steps : List SignalStep} {s : SignalState}
    (hnone : s.pending.get c = false) (h : (steps.foldl underGuard s).pending.get c = true) :
    .raise c ∈ steps := by
  induction steps generalizing s with
  | nil => exact nomatch hnone.symm.trans h
  | cons x rest ih =>
      by_cases hx : x = .raise c
      · exact hx ▸ List.mem_cons_self
      refine List.mem_cons_of_mem x (ih ?_ h)
      cases x with
      | hold => exact hnone
      | letGo => exact hnone
      | raise d =>
          have hd : c ≠ d := fun h => hx (h ▸ rfl)
          exact (PerSignal.get_set_of_ne _ _ hd).trans hnone
      | install d f =>
          by_cases hf : f = .ignore
          · by_cases hd : c = d
            · simp [underGuard, SignalState.installOne, hf, hd]
            · simp [underGuard, SignalState.installOne, hf, PerSignal.get_set_of_ne _ _ hd, hnone]
          · simp [underGuard, SignalState.installOne, hf, hnone]

/-- A signal is raised under a guard, and not discarded since, and does not stay blocked. -/
def Waits (mask : PerSignal Bool) (steps : List SignalStep) (c : ControlSignal) : Prop :=
  mask.get c = false ∧ .raise c ∈ steps ∧ Survives c steps

/-- What is due when the outermost guard is given up was raised under it. -/
theorem isDue_iff_waits {s : SignalState} (hquiet : s.Quiescent) (steps : List SignalStep)
    (c : ControlSignal) :
    SignalState.isDue { steps.foldl underGuard s.block with blocked := s.blocked } c = true ↔
      Waits s.blocked steps c := by
  have hdue : SignalState.isDue { steps.foldl underGuard s.block with blocked := s.blocked } c =
      true ↔ (steps.foldl underGuard s.block).pending.get c = true ∧ s.blocked.get c = false := by
    simp [SignalState.isDue]
  rw [hdue, Waits]
  constructor
  · rintro ⟨hpending, hfree⟩
    have hnone : s.pending.get c = false := by
      have hc := hquiet c
      simpa [SignalState.isDue, hfree] using hc
    have hraised : .raise c ∈ steps := raised_of_pending (s := s.block) hnone hpending
    exact ⟨hfree, hraised, (pending_foldl_underGuard _ hraised).mp hpending⟩
  · rintro ⟨hfree, hraised, hsurvives⟩
    exact ⟨(pending_foldl_underGuard _ hraised).mpr hsurvives, hfree⟩

/-- Where nothing is installed, nothing is discarded, so every signal survives. -/
theorem survives_of_no_install {steps : List SignalStep} (h : ∀ x ∈ steps, x.isInstall = false)
    (c : ControlSignal) : Survives c steps := by
  rintro before after rfl
  exact nomatch h (.install c .ignore) (by simp)

/-- Where nothing is installed, the dispositions are those from before. -/
theorem action_of_no_install {steps : List SignalStep} (h : ∀ x ∈ steps, x.isInstall = false)
    (s : SignalState) : (steps.foldl underGuard s).action = s.action := by
  have hnone : steps.filter isInstall = [] := by simpa using h
  rw [foldl_underGuard_action, hnone]
  rfl

end SignalStep

namespace Watch

open SignalStep SignalState

/-! ## The result -/

variable {s t : SignalState} {w : Watch} {n : Nat}

/-- A guard that is taken holds off whatever is raised until it is given up. -/
theorem run_guarded (hfate : w.fate = .alive t) {part : List SignalStep} {k : Nat}
    (hdepth : depth? 0 part = some k) :
    w.run (.hold :: part) = ⟨.alive (part.foldl underGuard t.block),
      List.replicate k (.const true) ++ t.blocked :: w.guards, w.delivered⟩ := by
  have hhold : w.step .hold =
      ⟨.alive t.block, List.replicate 0 (.const true) ++ t.blocked :: w.guards, w.delivered⟩ := by
    simp [step, hfate]
  rw [run_cons, hhold]
  exact run_held hdepth rfl _ _

/-- The guard is given up after the ones that were taken since. -/
theorem run_through (hfate : w.fate = .alive t) {inside : List SignalStep}
    (hinside : depth? 0 inside = some 0) :
    let held := inside.foldl underGuard t.block
    let restored := { held with blocked := t.blocked }
    ∃ fate, w.run (.hold :: inside ++ [.letGo]) =
        ⟨fate, w.guards, w.delivered ++ (restored.heardOf ControlSignal.all).map
          fun c => (c, held.action.get c)⟩ ∧
      Released restored ControlSignal.all fate := by
  rw [run_append, run_guarded hfate hinside]
  exact letGo_alive _ t.blocked w.guards w.delivered

/-- Where everything stays blocked nothing is due, and so nothing is heard. -/
theorem heardOf_eq_nil (hblocked : s.blocked = .const true) (cs : List ControlSignal) :
    s.heardOf cs = [] := by
  have hnone : ∀ c, s.isDue c = false := fun c => by simp [isDue, hblocked]
  induction cs with
  | nil => rfl
  | cons c cs ih => rw [heardOf, hnone c, if_neg Bool.false_ne_true, ih]

theorem mem_all (c : ControlSignal) : c ∈ ControlSignal.all := by
  cases c <;> decide

/-- The signal that ends the process is the fatal one that it hears. -/
theorem fatal_iff_killed {fate : Fate} (h : Released s ControlSignal.all fate) (c : ControlSignal) :
    c ∈ s.heardOf ControlSignal.all ∧ s.isFatal c = true ↔
      ∃ announced, fate = .killed c announced := by
  cases h with
  | lives hmask hnone hleft =>
      refine iff_of_false (fun h => ?_) (fun ⟨_, h⟩ => nomatch h)
      exact nomatch h.2.symm.trans (hnone c h.1)
  | @dies d announced hheard hfatal =>
      constructor
      · rintro ⟨hc, hcfatal⟩
        -- Neither of the two can be lower than the other.
        have hsorted : ControlSignal.all.Pairwise fun c d => c.number < d.number := by decide
        obtain ⟨-, hcdue, hcfirst⟩ := (mem_heardOf hsorted).mp hc
        obtain ⟨-, hddue, hdfirst⟩ := (mem_heardOf hsorted).mp hheard
        rcases Int.lt_trichotomy c.number d.number with hlt | heq | hgt
        · exact nomatch hcfatal.symm.trans (hdfirst c (mem_all c) hlt hcdue)
        · obtain rfl := ControlSignal.eq_of_number_eq heq
          exact ⟨announced, rfl⟩
        · exact nomatch hfatal.symm.trans (hcfirst d (mem_all d) hgt hddue)
      · rintro ⟨_, h⟩
        obtain ⟨rfl, -⟩ := Fate.killed.inj h
        exact ⟨hheard, hfatal⟩

/-- A guard that is given up within another one delivers nothing. -/
theorem run_inner (hfate : w.fate = .alive t) (hblocked : t.blocked = .const true)
    {inside : List SignalStep} (hinside : depth? 0 inside = some 0) :
    (w.run (.hold :: inside ++ [.letGo])).delivered = w.delivered ∧
      ∃ u, (w.run (.hold :: inside ++ [.letGo])).fate = .alive u := by
  obtain ⟨fate, hdone, hreleased⟩ := run_through hfate hinside
  have hnothing := heardOf_eq_nil (s := { inside.foldl underGuard t.block with
    blocked := t.blocked }) hblocked ControlSignal.all
  rw [hdone, hnothing]
  refine ⟨List.append_nil _, ?_⟩
  cases hreleased with
  | lives hkept hnone hleft => exact ⟨_, rfl⟩
  | dies hheard hfatal => exact absurd (hnothing ▸ hheard) List.not_mem_nil

/-- The guard that is given up last delivers what was raised under it, up to the first signal that
ends the process. -/
theorem run_outermost (hfate : w.fate = .alive t) (hquiet : t.Quiescent)
    {inside : List SignalStep} (hinside : depth? 0 inside = some 0) :
    let done := w.run (.hold :: inside ++ [.letGo])
    let action := (inside.foldl underGuard t.block).action
    let Fatal := fun c => (action.get c).isFatal c = true
    ∃ heard : List ControlSignal,
      done.delivered = w.delivered ++ heard.map (fun c => (c, action.get c)) ∧
      heard.Pairwise (fun c d => c.number < d.number) ∧
      (∀ c, c ∈ heard ↔ Waits t.blocked inside c ∧
        ∀ d, d.number < c.number → Waits t.blocked inside d → ¬ Fatal d) ∧
      ∀ c, c ∈ heard ∧ Fatal c ↔ ∃ announced, done.fate = .killed c announced := by
  intro done action Fatal
  obtain ⟨fate, hdone, hreleased⟩ := run_through hfate hinside
  have hdone' : done = ⟨fate, w.guards, w.delivered ++ _⟩ := hdone
  have hsorted : ControlSignal.all.Pairwise fun c d => c.number < d.number := by decide
  have hwaits := isDue_iff_waits hquiet inside
  refine ⟨_, by rw [hdone'], hsorted.sublist (heardOf_sublist _ _), fun c => ?_, fun c => ?_⟩
  · rw [mem_heardOf hsorted, hwaits]
    constructor
    · rintro ⟨-, hc, hfirst⟩
      refine ⟨hc, fun d hlower hd hfatal => ?_⟩
      exact nomatch hfatal.symm.trans (hfirst d (mem_all d) hlower ((hwaits d).mpr hd))
    · rintro ⟨hc, hfirst⟩
      refine ⟨mem_all c, hc, fun d _ hlower hd => ?_⟩
      exact Bool.eq_false_iff.mpr (hfirst d hlower ((hwaits d).mp hd))
  · rw [hdone']
    exact fatal_iff_killed hreleased c

end Watch

end Conch
