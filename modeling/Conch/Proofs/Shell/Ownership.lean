import Conch.Proofs.Shell.ChildTracking

/-!
# Whom a shell tells to end

A shell that leaves tells every process in its table to end.  That reaches nobody else as long as
all of them are children that have not been collected, since their numbers are taken (`Owned`).

A shell never tracks anything but a child, and whatever it does between two notifications keeps the
children that it tracks.  A sweep is another matter: to ask about a child that has ended is to
collect it, and if there is no word for its end, the answer is an error, by which its job stays in
the table.  So a session is owned at every moment if and only if no sweep in it was given such an
answer (`owned_iff_ungarbled`), and in a session where one was, a number is told to end that may be
anybody's (`collected_process_dismissed`).
-/

namespace Conch

/-- A sweep was given the answer that belongs to an end without a name. -/
def Event.garbled : Event → Bool
  | asked _ answer => answer = .failed .invalidArgument
  | _ => false

/-- An event that is about no child is no answer, so it is not garbled. -/
theorem Event.garbled_of_unrelated {event : Event} (h : event.Unrelated) :
    event.garbled = false := by
  cases event with
  | asked pid answer => exact absurd h id
  | _ => rfl

theorem Event.garbled_of_minor {event : Event} (h : event.Minor) : event.garbled = false :=
  garbled_of_unrelated (unrelated_of_minor h)

namespace Shell

variable {σ : Type} {H : Host σ}

/-- Every process in the table is a child that has not been collected. -/
def Owned (K : Kernel H) (sh : Shell (Recorded σ)) : Prop :=
  ∀ pid ∈ sh.jobs.pids, (K.children sh.world.world).isChild pid = true

variable {K : Kernel H} {sh mid sh' : Shell (Recorded σ)}

/-- The shell owns its jobs if there is something to be told about each of them. -/
theorem owned_iff : Owned K sh ↔ ∀ pid ∈ sh.jobs.pids, K.recorded.status? sh pid ≠ none := by
  have hchild : ∀ pid, (K.children sh.world.world).isChild pid = true ↔
      K.recorded.status? sh pid ≠ none := fun pid => Children.isChild_iff _ pid
  simp only [Owned, hchild]

/-- If a process is tracked that is no child, the shell does not own its jobs. -/
theorem not_owned_of_stranger {pid : ProcessId} (hin : pid ∈ sh.jobs.pids)
    (hgone : (K.children sh.world.world).isChild pid = false) : ¬ Owned K sh := by
  intro howned
  rw [howned pid hin] at hgone
  exact absurd hgone (by decide)

/-- No sweep was given such an answer. -/
def Clean (sh : Shell (Recorded σ)) : Prop :=
  ∀ event ∈ sh.world.log, event.garbled = false

/-- Where no garbled answer comes in, the log is as clean as it was. -/
theorem clean_iff_of_log {new : List Event} (hlog : sh'.world.log = sh.world.log ++ new)
    (hnew : ∀ event ∈ new, event.garbled = false) : Clean sh' ↔ Clean sh := by
  rw [Clean, hlog, List.forall_mem_append]
  exact and_iff_left hnew

/-! ## Calm steps -/

/-- A calm step leaves tracked only what is a child: it tracks the one that it has created, or
collects one that was never tracked. -/
theorem owned_of_calm (h : Owned K sh) (hcalm : Calm K sh sh') : Owned K sh' := by
  rw [owned_iff] at h ⊢
  cases hcalm with
  | still hstill =>
      intro pid hin
      rw [hstill.jobs] at hin
      exact mt (eq_none_iff_of_ages (hstill.children pid)).mp (h pid hin)
  | @tracked command child forked jobs hbackground hfork hregister =>
      obtain ⟨-, hborn, hothers⟩ := born_of_forks K.recorded hfork
      have hprinted := K.recorded.print (Job.begunText child ++ "\n") forked.world
      intro pid hin
      rw [jobs_of_forks hfork] at hregister
      have hforked : K.recorded.status? forked pid ≠ none := by
        by_cases hpid : pid = child
        · exact hpid ▸ hborn
        · have hold := ((TrackedJobs.mem_pids_of_register? hregister pid).mp hin).resolve_left hpid
          exact mt (eq_none_iff_of_ages (hothers pid hpid)).mp (h pid hold)
      exact mt (eq_none_iff_of_ages (hprinted pid)).mp hforked
  | @collected command child forked waited answers result hfront hfork hwait hresult =>
      obtain ⟨-, -, -, hjobs⟩ := log_collected hfork hwait
      obtain ⟨hnew, hborn, hothers⟩ := born_of_forks K.recorded hfork
      obtain ⟨-, hothers'⟩ := gone_of_waits K.recorded hwait hborn hresult
      intro pid hin
      rw [hjobs] at hin
      -- the process that came and went had a number that nobody in the table has
      have hpid : pid ≠ child := fun hsame => h pid hin (hsame ▸ hnew)
      have hages := ages_trans (hothers pid hpid) (hothers' pid hpid)
      exact mt (eq_none_iff_of_ages hages).mp (h pid hin)

/-- A calm step asks about no job, so the log is as clean as it was. -/
theorem clean_iff_of_calm (hcalm : Calm K sh sh') : Clean sh' ↔ Clean sh := by
  cases hcalm with
  | still hstill =>
      obtain ⟨new, hlog, hnew⟩ := hstill.log
      exact clean_iff_of_log hlog fun event hin => Event.garbled_of_unrelated (hnew event hin)
  | tracked hbackground hfork hregister =>
      obtain ⟨early, launch, late, -, hlog, hearly, hlate⟩ := log_tracked hfork
      refine clean_iff_of_log hlog fun event hin => ?_
      simp only [List.mem_append, List.mem_cons, List.not_mem_nil, or_false] at hin
      rcases hin with hin | rfl | hin | rfl
      · exact Event.garbled_of_minor (hearly event hin)
      · rfl
      · exact Event.garbled_of_minor (hlate event hin)
      · rfl
  | collected hfront hfork hwait hresult =>
      obtain ⟨new, hlog, hnew, -⟩ := log_collected hfork hwait
      refine clean_iff_of_log hlog fun event hin => ?_
      rcases hnew event hin with hminor | ⟨launch, -, rfl⟩ | rfl
      · exact Event.garbled_of_minor hminor
      · rfl
      · rfl

theorem owned_of_calms (h : Owned K sh) (hcalms : Calms K sh sh') : Owned K sh' := by
  induction hcalms with
  | refl => exact h
  | tail _ hcalm ih => exact owned_of_calm ih hcalm

theorem clean_iff_of_calms (hcalms : Calms K sh sh') : Clean sh' ↔ Clean sh := by
  induction hcalms with
  | refl => exact Iff.rfl
  | tail _ hcalm ih => exact (clean_iff_of_calm hcalm).trans ih

/-! ## Notifications -/

/-- A notification keeps the table owned, unless it is given an answer about a child that does not
say how it ended. -/
theorem owned_notified_iff (hdistinct : sh.jobs.pids.Nodup) (h : Owned K sh) :
    Owned K (notified H.recorded sh) ↔
      ∀ asked ∈ JobTable.consult H.recorded.poll sh.jobs.jobs sh.world,
        asked.2 ≠ .failed .invalidArgument := by
  rw [owned_iff] at h ⊢
  have htable : (notified H.recorded sh).jobs.jobs =
      (JobTable.consult H.recorded.poll sh.jobs.jobs sh.world).filterMap JobTable.stays? :=
    JobTable.remaining_eq H.recorded.poll sh.jobs.jobs sh.world
  -- of each job that stays, the answer alone decides whether its process is still a child
  have hdecides : ∀ asked ∈ JobTable.consult H.recorded.poll sh.jobs.jobs sh.world,
      asked.2.verdict = .kept →
        (K.recorded.status? (notified H.recorded sh) asked.1.pid ≠ none ↔
          asked.2 ≠ .failed .invalidArgument) := by
    intro asked hasked hkept
    have hjob := JobTable.mem_of_mem_consult H.recorded.poll hasked
    have hbefore := h asked.1.pid (List.mem_map_of_mem hjob)
    have htold := child_of_told (told_of_sweep K.recorded hdistinct hasked) hbefore hkept
    have hprinted := eq_none_iff_of_ages (later_notified K.recorded sh asked.1.pid)
    exact (not_congr hprinted).trans htold
  constructor
  · intro howned asked hasked hgarbled
    have hkept : asked.2.verdict = .kept := by
      rw [hgarbled]
      decide
    have hstays := JobTable.stays?_eq_some_iff.mpr ⟨rfl, hkept⟩
    have hremains : asked.1 ∈ (notified H.recorded sh).jobs.jobs := by
      rw [htable]
      exact List.mem_filterMap.mpr ⟨asked, hasked, hstays⟩
    have hchild := howned asked.1.pid (List.mem_map_of_mem hremains)
    exact (hdecides asked hasked hkept).mp hchild hgarbled
  · intro hclean pid hin
    obtain ⟨job, hjob, rfl⟩ := List.mem_map.mp hin
    rw [htable] at hjob
    obtain ⟨asked, hasked, hstays⟩ := List.mem_filterMap.mp hjob
    obtain ⟨rfl, hkept⟩ := JobTable.stays?_eq_some_iff.mp hstays
    exact (hdecides asked hasked hkept).mpr (hclean asked hasked)

/-- A notification leaves the log clean exactly if it was clean, and no answer about a job is
garbled. -/
theorem clean_notified_iff : Clean (notified H.recorded sh) ↔ Clean sh ∧
    ∀ asked ∈ JobTable.consult H.recorded.poll sh.jobs.jobs sh.world,
      asked.2 ≠ .failed .invalidArgument := by
  have hprinted : ∀ event ∈ (JobTable.sweepJobs H.recorded.poll sh.jobs.jobs
      sh.world).completed.map fun job => Event.printed (job.text ++ "\n"),
      event.garbled = false := by
    intro event hin
    obtain ⟨job, -, rfl⟩ := List.mem_map.mp hin
    rfl
  rw [Clean, log_notified, List.forall_mem_append, List.forall_mem_append, List.forall_mem_map]
  simp only [Event.garbled, decide_eq_false_iff_not]
  exact and_iff_left hprinted

/-! ## Sessions -/

/-- What is clean after a turn was clean before it, since the log only grows. -/
theorem clean_of_turn {turn : Turn σ} (hfair : turn.Fair K)
    (hreached : reached? (turn.act H sh) = some sh') (hclean : Clean sh') : Clean sh := by
  obtain ⟨mid, hcalms, rfl | rfl⟩ := steps_of_turn hfair hreached
  · exact (clean_iff_of_calms hcalms).mp hclean
  · exact (clean_iff_of_calms hcalms).mp (clean_notified_iff.mp hclean).1

/-- **What a turn does** to an owned table: it stays owned exactly if no answer was garbled. -/
theorem owned_turn_iff {turn : Turn σ} (htracks : AllTracked K sh) (h : Owned K sh)
    (hclean : Clean sh)
    (hfair : turn.Fair K) (hreached : reached? (turn.act H sh) = some sh') :
    Owned K sh' ↔ Clean sh' := by
  obtain ⟨mid, hcalms, hlast⟩ := steps_of_turn hfair hreached
  have howned := owned_of_calms h hcalms
  have hmid := (clean_iff_of_calms hcalms).mpr hclean
  rcases hlast with rfl | rfl
  · exact iff_of_true howned hmid
  · have hdistinct := (allTracked_of_calms htracks hcalms).distinct
    rw [clean_notified_iff, owned_notified_iff hdistinct howned]
    exact (and_iff_right hmid).symm

variable {turns : List (Turn σ)}

/-- **What a session does**: as long as no answer was garbled, the table is owned. -/
theorem owned_of_clean (htracks : AllTracked K sh) (h : Owned K sh)
    (hfair : ∀ turn ∈ turns, turn.Fair K)
    (hreached : reached? (play H turns sh) = some sh') (hclean : Clean sh') : Owned K sh' := by
  induction turns using List.reverseRec generalizing sh' with
  | nil =>
      obtain rfl := Option.some.inj hreached
      exact h
  | append_singleton turns turn ih =>
      obtain ⟨hbefore, hturn⟩ := List.forall_mem_append.mp hfair
      replace hturn := hturn turn (List.mem_singleton_self turn)
      rcases reached?_play_snoc H hreached with hstopped | ⟨mid, hmid, hlast⟩
      · exact ih hbefore hstopped hclean
      · have hearly := clean_of_turn hturn hlast hclean
        have howned := ih hbefore hmid hearly
        have hmidTracks := allTracked_play htracks hbefore hmid
        exact (owned_turn_iff hmidTracks howned hearly hturn hlast).mpr hclean

/-- A session in which the table was owned after every turn has heard no garbled answer. -/
theorem clean_of_owned (htracks : AllTracked K sh) (h : Clean sh)
    (hfair : ∀ turn ∈ turns, turn.Fair K)
    (howned : ∀ before, before <+: turns → ∀ mid, reached? (play H before sh) = some mid →
      Owned K mid)
    (hreached : reached? (play H turns sh) = some sh') : Clean sh' := by
  induction turns using List.reverseRec generalizing sh' with
  | nil =>
      obtain rfl := Option.some.inj hreached
      exact h
  | append_singleton turns turn ih =>
      obtain ⟨hbefore, hturn⟩ := List.forall_mem_append.mp hfair
      replace hturn := hturn turn (List.mem_singleton_self turn)
      have hshorter : ∀ before, before <+: turns → ∀ mid,
          reached? (play H before sh) = some mid → Owned K mid := fun before hbefore =>
        howned before (hbefore.trans (List.prefix_append turns [turn]))
      rcases reached?_play_snoc H hreached with hstopped | ⟨mid, hmid, hlast⟩
      · exact ih hbefore hshorter hstopped
      · have hearly := ih hbefore hshorter hmid
        have hmidOwned := hshorter turns (List.prefix_refl turns) mid hmid
        have hmidTracks := allTracked_play htracks hbefore hmid
        have hnow := howned _ (List.prefix_refl _) sh' hreached
        exact (owned_turn_iff hmidTracks hmidOwned hearly hturn hlast).mp hnow

/-! ## Leaving -/

/-- What is noted of a shell that leaves is that it tells each process in the table to end, in the
order of the table. -/
theorem log_leave (code? : Option Int) (sh : Shell (Recorded σ)) :
    (left (leave H.recorded code? sh : EStateM.Result Stop (Shell (Recorded σ)) Unit)).world.log =
      sh.world.log ++ sh.jobs.pids.map .dismissed := by
  have hfold : ∀ (pids : List ProcessId) (r : Recorded σ),
      (pids.foldl (fun r pid => (H.recorded.terminate pid r).2) r).log =
        r.log ++ pids.map .dismissed := by
    intro pids
    induction pids with
    | nil => intro r; simp
    | cons pid pids ih =>
        intro r
        have hfirst : (H.recorded.terminate pid r).2.log = r.log ++ [.dismissed pid] := rfl
        rw [List.foldl_cons, ih, hfirst, List.append_assoc]
        rfl
  rw [leave_eq]
  exact hfold sh.jobs.pids sh.world

/-- A shell that leaves tells the processes in its table to end, and nobody else; those that were
children are so still. -/
theorem dismissals_of_leaving {turn : Turn σ} {code : Int}
    (hrun : turn.act H sh = .error (.ended (.exited code)) sh') :
    (∃ early, sh'.world.log = sh.world.log ++ (early ++ sh.jobs.pids.map .dismissed) ∧
      ∀ pid, Event.dismissed pid ∉ early) ∧ Aged K.recorded sh sh' := by
  rcases of_act_eq_exited hrun with hleave | ⟨line, command, -, -, hleave⟩
  · have hlog := log_leave (H := H) none sh
    rw [hleave] at hlog
    exact ⟨⟨[], hlog, fun _ hin => nomatch hin⟩, later_of_quiet K.recorded (quiet_of_leave hleave)⟩
  · have hlog := log_leave (H := H) (some 0) (handedOn line sh)
    have hnoted : (handedOn line sh).world.log = sh.world.log ++
        [.handed line (!sh.interpreter.foregroundOnly) sh.signals.stops] := rfl
    rw [hleave, hnoted, List.append_assoc] at hlog
    have hlater : Aged K.recorded (handedOn line sh) sh' :=
      later_of_quiet K.recorded (quiet_of_leave hleave)
    exact ⟨⟨_, hlog, fun pid hin => nomatch List.mem_singleton.mp hin⟩, hlater⟩

theorem act_quit (sh : Shell (Recorded σ)) :
    (Turn.quit : Turn σ).act H sh =
      .error (.ended (.exited sh.interpreter.status.last.code))
        (left ((Turn.quit : Turn σ).act H sh)) := by
  rw [Turn.act, leave_eq]
  rfl

/-! ## The result -/

/-- **A shell tells only its own children to end, unless it was given a garbled answer.**  On a host
that keeps children as the system does, for every session of a new shell that has no children,
whatever its turns are and whenever children end: after every turn every process in the table is a
child that has not been collected, if and only if no sweep is given the error that belongs to an end
without a name.  That error is the answer about a child that was killed by a real-time signal, which
is collected by it, and about nobody else.  A shell that leaves tells exactly the processes in its
table to end, and those that were its children before are so still. -/
theorem owned_iff_ungarbled (K : Kernel H) (config : Config) (pid : UInt32) (signals : SignalState)
    (world : σ) (hnone : ∀ child, (K.children world).isChild child = false)
    (turns : List (Turn σ)) (hfair : ∀ turn ∈ turns, turn.Fair K) :
    ((∀ before, before <+: turns → ∀ sh,
        reached? (play H before (recorded (fresh config pid signals world))) = some sh →
        Owned K sh) ↔
      ∀ before, before <+: turns → ∀ sh,
        reached? (play H before (recorded (fresh config pid signals world))) = some sh →
        ∀ event ∈ sh.world.log, event.garbled = false) ∧
    (∀ (cs : Children) (child : ProcessId), (Children.poll child cs).1 = .failed .invalidArgument ↔
      ∃ cause, cs.status? child = some (some cause) ∧ ¬ cause.Nameable) ∧
    ∀ (sh sh' : Shell (Recorded σ)) (turn : Turn σ) (code : Int),
      turn.act H sh = .error (.ended (.exited code)) sh' →
      ∃ new, sh'.world.log = sh.world.log ++ new ∧
        (∀ child, Event.dismissed child ∈ new ↔ child ∈ sh.jobs.pids) ∧
        ∀ child, (K.children sh'.world.world).isChild child =
          (K.children sh.world.world).isChild child := by
  have hstart := allTracked_fresh config pid signals hnone
  have hnobody : Owned K (recorded (fresh config pid signals world)) := fun _ hin => nomatch hin
  have hsilent : Clean (recorded (fresh config pid signals world)) := fun _ hin => nomatch hin
  have hfairBefore : ∀ before, before <+: turns → ∀ turn ∈ before, turn.Fair K :=
    fun before hbefore turn hin => hfair turn (hbefore.subset hin)
  refine ⟨⟨?_, ?_⟩, Children.poll_eq_invalidArgument_iff, fun sh sh' turn code hrun => ?_⟩
  · intro howned before hbefore sh hreached
    have hearlier : ∀ earlier, earlier <+: before → ∀ mid,
        reached? (play H earlier (recorded (fresh config pid signals world))) = some mid →
        Owned K mid := fun earlier h => howned earlier (h.trans hbefore)
    exact clean_of_owned hstart hsilent (hfairBefore before hbefore) hearlier hreached
  · intro hclean before hbefore sh hreached
    have hnow := hclean before hbefore sh hreached
    exact owned_of_clean hstart hnobody (hfairBefore before hbefore) hreached hnow
  · obtain ⟨⟨early, hlog, hearly⟩, hlater⟩ := dismissals_of_leaving (K := K) hrun
    refine ⟨_, hlog, fun child => ?_, fun child => ?_⟩
    · rw [List.mem_append, List.mem_map]
      constructor
      · rintro (hin | ⟨other, hin, hsame⟩)
        · exact absurd hin (hearly child)
        · exact Event.dismissed.inj hsame ▸ hin
      · exact fun hin => .inr ⟨child, hin, rfl⟩
    · rw [Bool.eq_iff_iff, Children.isChild_iff, Children.isChild_iff]
      exact not_congr (eq_none_iff_of_ages (hlater child))

/-- The turns of a session in which nobody dies of a real-time signal, up to the last one. -/
def turnsBeforeQuit : List (Turn ChildWorld) :=
  [.line "mv &".toList, .line "sh".toList, .notify]

/-- The shell after these turns. -/
def beforeQuit : Shell (Recorded ChildWorld) :=
  left (play ChildWorld.host turnsBeforeQuit (recorded ChildWorld.shell))

/-- At every moment of a visit the table is owned, and the shell then tells the one child that is
left to end. -/
theorem owned_iff_ungarbled_of_turns :
    (∀ before, before <+: turnsBeforeQuit → ∀ sh,
      reached? (play ChildWorld.host before (recorded ChildWorld.shell)) = some sh →
      Owned ChildWorld.kernel sh) ∧
    ∃ new, (left (Turn.act ChildWorld.host .quit beforeQuit)).world.log =
        beforeQuit.world.log ++ new ∧
      Event.dismissed ⟨7⟩ ∈ new := by
  have hfair : ∀ turn ∈ turnsBeforeQuit, turn.Fair ChildWorld.kernel := by
    simp only [turnsBeforeQuit, List.forall_mem_cons]
    exact ⟨trivial, trivial, trivial, fun _ hin => nomatch hin⟩
  have hclean : ∀ before ∈ turnsBeforeQuit.inits, ∀ event ∈
      (left (play ChildWorld.host before (recorded ChildWorld.shell))).world.log,
      event.garbled = false := by
    decide +kernel
  have htracked : ⟨7⟩ ∈ beforeQuit.jobs.pids := by decide +kernel
  have hmain :=
    owned_iff_ungarbled ChildWorld.kernel {} 1 {} {} (fun _ => rfl) turnsBeforeQuit hfair
  refine ⟨hmain.1.mpr fun before hbefore sh hreached => ?_, ?_⟩
  · rw [← left_of_reached? hreached]
    exact hclean before ((List.mem_inits before turnsBeforeQuit).mpr hbefore)
  · obtain ⟨new, hlog, hdismissed, -⟩ := hmain.2.2 beforeQuit _ .quit _ (act_quit beforeQuit)
    exact ⟨new, hlog, (hdismissed ⟨7⟩).mpr htracked⟩

/-- What comes of it when a background child is killed by the first real-time signal before a
notification. -/
def realTimeDeath : EStateM.Result Stop (Shell (Recorded ChildWorld)) Unit :=
  play ChildWorld.host
    [.line "sh &".toList, .meanwhile (ChildWorld.finish ⟨7⟩ (.killed 34)), .notify]
    (recorded ChildWorld.shell)

/-- Its number is in the table, though no child has it any more, and when the shell leaves, it tells
whoever has got the number by then to end. -/
theorem collected_process_dismissed :
    (reached? realTimeDeath).isSome = true ∧ ¬ Owned ChildWorld.kernel (left realTimeDeath) ∧
      (ChildWorld.kernel.children (left realTimeDeath).world.world).isChild ⟨7⟩ = false ∧
      Event.dismissed ⟨7⟩ ∈
        (left (Turn.act ChildWorld.host .quit (left realTimeDeath))).world.log := by
  have htracked : ⟨7⟩ ∈ (left realTimeDeath).jobs.pids := by decide +kernel
  have hgone :
      (ChildWorld.kernel.children (left realTimeDeath).world.world).isChild ⟨7⟩ = false := by
    decide +kernel
  refine ⟨by decide +kernel, not_owned_of_stranger htracked hgone, hgone, ?_⟩
  decide +kernel

end Shell

end Conch
