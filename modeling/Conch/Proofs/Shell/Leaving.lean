import Conch.Proofs.Shell.Termination

/-!
# What a shell does when it leaves

Between two turns of a shell all its children are tracked and announced, no report on a job that is
tracked has come since it was announced, and nobody has been told to end (`Ready`).  A shell that
leaves finds this, whatever its commands came from and whichever way it came to leave
(`departs_conclude`): of its own accord at the end of its commands, because a line tells it to, or
after an error that ends the run.

So it tells every child that has not been collected to end, once, and nobody on whom it has
reported; and since that is the last thing it does, nothing that comes of it matters
(`children_told_on_leaving`).
-/

namespace Conch

/-- Turning to streams does nothing to children. -/
structure Kernel.StreamsApart {σ : Type} {H : Host σ} (K : Kernel H) : Prop where
  standardInput : ∀ n world, (K.children world).Later (K.children (H.standardInput.advance n world))
  openLines : ∀ path world input world', H.openLines path world = .ok (input, world') →
    (K.children world).Later (K.children world') ∧
      ∀ n later, (K.children later).Later (K.children (input.advance n later))

namespace Shell

variable {σ : Type} {H : Host σ} {K : Kernel H} {sh mid sh' : Shell (Recorded σ)}

/-! ## Between two turns -/

/-- It was announced that the process has begun, and no report on it has come since. -/
def Outstanding (log : List Event) (pid : ProcessId) : Prop :=
  ∃ before after, log = before ++ .printed (Job.begunText pid ++ "\n") :: after ∧
    ∀ event ∈ after, event.completed? ≠ some pid.text.toList

/-- A process of which nothing is reported meanwhile stays outstanding. -/
theorem Outstanding.append {log new : List Event} {pid : ProcessId} (h : Outstanding log pid)
    (hnew : ∀ event ∈ new, event.completed? ≠ some pid.text.toList) :
    Outstanding (log ++ new) pid := by
  obtain ⟨before, after, rfl, hafter⟩ := h
  refine ⟨before, after ++ new, by simp, fun event hin => ?_⟩
  rcases List.mem_append.mp hin with hin | hin
  · exact hafter event hin
  · exact hnew event hin

/-- Every process in the table is outstanding. -/
def Owes (sh : Shell (Recorded σ)) : Prop :=
  ∀ pid ∈ sh.jobs.pids, Outstanding sh.world.log pid

/-- Where nothing is reported and no job is added, all that is tracked is outstanding as before. -/
theorem owes_of_silent {new : List Event} (h : Owes sh)
    (hlog : sh'.world.log = sh.world.log ++ new) (hnew : ∀ event ∈ new, event.completed? = none)
    (hjobs : sh'.jobs = sh.jobs) : Owes sh' := by
  intro pid hin
  rw [hjobs] at hin
  rw [hlog]
  refine (h pid hin).append fun event hevent => ?_
  rw [hnew event hevent]
  exact nofun

/-- A calm step reports nothing, and a process that it tracks was announced. -/
theorem owes_of_calm (h : Owes sh) (hcalm : Calm K sh sh') : Owes sh' := by
  cases hcalm with
  | still hstill =>
      obtain ⟨new, hlog, hnew⟩ := hstill.log
      exact owes_of_silent h hlog (fun event hin => (silent_of_unrelated (hnew event hin)).2)
        hstill.jobs
  | collected hfront hfork hwait hresult =>
      obtain ⟨new, hlog, hnew, hjobs⟩ := log_collected hfork hwait
      refine owes_of_silent h hlog (fun event hin => ?_) hjobs
      rcases hnew event hin with hminor | ⟨launch, -, rfl⟩ | rfl
      · exact (silent_of_minor hminor).2
      · rfl
      · rfl
  | @tracked command child forked jobs hbackground hfork hregister =>
      obtain ⟨early, launch, late, -, hlog, hearly, hlate⟩ := log_tracked hfork
      rw [jobs_of_forks hfork] at hregister
      intro pid hin
      change Outstanding (H.recorded.print (Job.begunText child ++ "\n") forked.world).log pid
      rw [hlog]
      by_cases hpid : pid = child
      · -- the announcement of the new process is the last event
        subst hpid
        exact ⟨sh.world.log ++ (early ++ .created launch (some pid) :: late), [], by simp,
          fun _ hnone => nomatch hnone⟩
      · have hold := ((TrackedJobs.mem_pids_of_register? hregister pid).mp hin).resolve_left hpid
        refine (h pid hold).append fun event hevent => ?_
        have hsilent : event.completed? = none := by
          simp only [List.mem_append, List.mem_cons, List.not_mem_nil, or_false] at hevent
          rcases hevent with hevent | rfl | hevent | rfl
          · exact (silent_of_minor (hearly event hevent)).2
          · rfl
          · exact (silent_of_minor (hlate event hevent)).2
          · exact Job.completed?_begunText child
        rw [hsilent]
        exact nofun

/-- A job that stays in the table is not reported. -/
theorem owes_notified (hdistinct : sh.jobs.pids.Nodup) (h : Owes sh) :
    Owes (notified H.recorded sh) := by
  have hperm := JobTable.pids_perm H.recorded.poll sh.jobs.jobs sh.world
  have hapart := (List.nodup_append'.mp (hperm.nodup_iff.mp hdistinct)).2.2
  have hlog := log_notified H sh
  rw [List.append_assoc] at hlog
  intro pid hin
  have hbefore : pid ∈ sh.jobs.pids :=
    ((JobTable.remaining_sublist H.recorded.poll sh.jobs.jobs sh.world).map Job.pid).subset hin
  rw [hlog]
  refine (h pid hbefore).append fun event hevent hname => ?_
  rcases List.mem_append.mp hevent with hevent | hevent
  · obtain ⟨asked, -, rfl⟩ := List.mem_map.mp hevent
    exact nomatch hname
  · obtain ⟨job, hjob, rfl⟩ := List.mem_map.mp hevent
    obtain ⟨-, cause, hcause⟩ := JobTable.of_mem_completed H.recorded.poll hjob
    have hsaid : (Event.printed (job.text ++ "\n")).completed? = some job.pid.text.toList :=
      Job.completed?_text hcause
    have hpid : job.pid = pid := ProcessId.text_injective (Option.some.inj (hsaid.symm.trans hname))
    subst hpid
    exact hapart (List.mem_map_of_mem hjob) (List.mem_append_right _ hin)

/-- What is true of a shell between two turns: the children are tracked, the books are in order, and
nobody has been told to end. -/
structure Ready (K : Kernel H) (sh : Shell (Recorded σ)) : Prop where
  tracked : AllTracked K sh
  owes : Owes sh
  peace : ∀ event ∈ sh.world.log, event.dismissed? = none

/-- A shell that is ready is ready after what passes calmly and tells nobody to end. -/
theorem ready_of_passes (h : Ready K sh) (hpasses : Passes K sh sh')
    (hpeaceful : NoDismissal sh sh') :
    Ready K sh' := by
  obtain ⟨mid, hcalms, hlast⟩ := hpasses
  have hmid : AllTracked K mid ∧ Owes mid := by
    refine ⟨allTracked_of_calms h.tracked hcalms, ?_⟩
    clear hlast
    induction hcalms with
    | refl => exact h.owes
    | tail _ hcalm ih => exact owes_of_calm ih hcalm
  obtain ⟨new, hlog, hnew⟩ := hpeaceful
  have hpeace : ∀ event ∈ sh'.world.log, event.dismissed? = none := by
    rw [hlog]
    exact List.forall_mem_append.mpr ⟨h.peace, hnew⟩
  rcases hlast with rfl | rfl
  · exact ⟨hmid.1, hmid.2, hpeace⟩
  · exact ⟨allTracked_notified hmid.1, owes_notified hmid.1.distinct hmid.2, hpeace⟩

/-- A shell that is ready is ready after something that is about neither children nor jobs. -/
theorem ready_of_still (h : Ready K sh) (hstill : Still K sh sh') (hpeaceful : NoDismissal sh sh') :
    Ready K sh' :=
  ready_of_passes h (passes_of_calms (Calm.still hstill).calms) hpeaceful

theorem ready_handedOn (h : Ready K sh) (line : Text) : Ready K (handedOn line sh) :=
  ready_of_passes h (passes_of_calms (calms_handedOn line sh)) (noDismissal_note sh rfl _)

/-- **What a turn preserves**: a shell that is ready is ready after it, if the turn is fair to the
children. -/
theorem ready_turn {turn : Turn σ} (h : Ready K sh) (hfair : turn.Fair K)
    (hreached : reached? (turn.act H sh) = some sh') : Ready K sh' :=
  ready_of_passes h (steps_of_turn hfair hreached) (noDismissal_turn hreached)

/-- A new shell in a world without children is ready. -/
theorem ready_fresh (config : Config) (pid : UInt32) (signals : SignalState) {world : σ}
    (hnone : ∀ child, (K.children world).isChild child = false) :
    Ready K (recorded (fresh config pid signals world)) where
  tracked := allTracked_fresh config pid signals hnone
  owes _ hin := nomatch hin
  peace _ hin := nomatch hin

/-! ## Leaving -/

/-- A shell that is ready leaves. -/
def Leaves (K : Kernel H) (code : Int) (sh' : Shell (Recorded σ)) : Prop :=
  ∃ sh code?, Ready K sh ∧
    (leave H.recorded code? : Act (Recorded σ) Unit) sh = .error (.ended (.exited code)) sh'

/-- A shell is ready at the end of a run, and so it was when it has left. -/
def Departs (K : Kernel H) : EStateM.Result Stop (Shell (Recorded σ)) Unit → Prop
  | .ok () sh | .error (.failed _) sh => Ready K sh
  | .error (.ended (.exited code)) sh' => Leaves K code sh'
  | .error (.ended _) _ => True

/-- **What a turn preserves**: the shell is ready after it, and was ready at the moment of leaving
if it has left. -/
theorem departs_turn {turn : Turn σ} (h : Ready K sh) (hfair : turn.Fair K) :
    Departs K (turn.act H sh) := by
  rcases hrun : turn.act H sh with ⟨⟨⟩, sh'⟩ | ⟨e | ending, sh'⟩
  · exact ready_turn h hfair (by rw [hrun]; rfl)
  · exact ready_turn h hfair (by rw [hrun]; rfl)
  · cases ending with
    | exited code =>
        rcases of_act_eq_exited hrun with hleave | ⟨line, command, -, -, hleave⟩
        · exact ⟨sh, none, h, hleave⟩
        · exact ⟨handedOn line sh, some 0, ready_handedOn h line, hleave⟩
    | _ => exact trivial

/-- **What a session preserves**: the shell is ready at its end, and it was ready when it left, if
it has left. -/
theorem departs_play {turns : List (Turn σ)} (h : Ready K sh)
    (hfair : ∀ turn ∈ turns, turn.Fair K) : Departs K (play H turns sh) := by
  induction turns generalizing sh with
  | nil => exact h
  | cons turn turns ih =>
      obtain ⟨hturn, hrest⟩ := List.forall_mem_cons.mp hfair
      have hfirst := departs_turn h hturn
      rw [play_cons]
      rcases hrun : turn.act H sh with ⟨⟨⟩, mid⟩ | ⟨stop, mid⟩ <;> rw [hrun] at hfirst
      · rw [bind_of_ok hrun]
        exact ih hfirst hrest
      · rw [bind_of_error hrun]
        exact hfirst

/-- Where turning to the stream does nothing to children, all turns in which it is served are
fair. -/
theorem fair_of_serves {input : InputStream σ} {turn : Turn σ}
    (hinput : ∀ n world, (K.children world).Later (K.children (input.advance n world)))
    (h : turn.Serves input) : turn.Fair K := by
  cases turn with
  | read other n =>
      obtain rfl : other = input := h
      exact hinput n
  | meanwhile change => exact absurd h id
  | _ => trivial

/-- What is a session in which a stream is served leads from a shell that is ready to one that is,
or to its leaving. -/
theorem departs_of_plays {input : InputStream σ} {action : Act (Recorded σ) Unit}
    (hinput : ∀ n world, (K.children world).Later (K.children (input.advance n world)))
    (hplays : Plays H input action) (h : Ready K sh) : Departs K (action sh) := by
  obtain ⟨turns, hserves, hplay⟩ := hplays sh
  have hdeparts := departs_play h fun turn hin => fair_of_serves hinput (hserves turn hin)
  rw [hplay] at hdeparts
  cases hrun : action sh <;> rw [hrun] at hdeparts <;> exact hdeparts

theorem departs_line {line : Text} (h : Ready K sh) : Departs K (executeNoted H line sh) := by
  have hready : ∀ {after}, reached? (executeNoted H line sh) = some after → Ready K after := by
    intro after hreached
    have hpeaceful := noDismissal_executeNoted hreached
    have hnote : noteLine line sh = .ok () (handedOn line sh) := rfl
    rw [executeNoted, bind_of_ok hnote] at hreached
    obtain ⟨hpasses, -⟩ :=
      passes_of_executed (K := K) (executed H.recorded line (handedOn line sh)) hreached
    obtain ⟨mid, hcalms, hlast⟩ := hpasses
    exact ready_of_passes h ⟨mid, (calms_handedOn line sh).trans hcalms, hlast⟩ hpeaceful
  rcases hrun : executeNoted H line sh with ⟨⟨⟩, sh'⟩ | ⟨e | ending, sh'⟩
  · exact hready (by rw [hrun]; rfl)
  · exact hready (by rw [hrun]; rfl)
  · -- the end of a line is that of the turn in which it is executed
    have hact : (Turn.line line).act H sh = .error (.ended ending) sh' := tryCatch_of_error hrun
    have hdeparts : Departs K ((Turn.line line).act H sh) := departs_turn h trivial
    rwa [hact] at hdeparts

end Shell

namespace CommandLine

open Shell

variable {σ : Type} {H : Host σ} {K : Kernel H} {sh sh' : Shell (Recorded σ)}

/-- The commands of any source lead from a shell that is ready to one that is, or to its leaving. -/
theorem departs_noted (hstreams : K.StreamsApart) (source : CommandSource) (h : Ready K sh) :
    Departs K (noted H source sh) := by
  have hserves : ∀ (input : InputStream σ) (prompted : Bool) {sh : Shell (Recorded σ)},
      (∀ n world, (K.children world).Later (K.children (input.advance n world))) →
      Ready K sh → Departs K (streamNoted H input.recorded
        (if prompted then some promptText else none) sh) :=
    fun input prompted _ hinput h => departs_of_plays hinput
      (plays_get H fun _ => plays_serve H (cut?_promptText prompted) _ {}) h
  cases source with
  | line text => exact departs_line h
  | standardInput =>
      exact hserves H.standardInput sh.config.interactive hstreams.standardInput h
  | version => exact h
  | missingLine => exact h
  | file path =>
      have hlook : (get : Act (Recorded σ) _) sh = .ok sh sh := rfl
      rw [noted, bind_of_ok hlook, openLines_recorded]
      cases hopen : H.openLines path sh.world.world with
      | error reason => exact h
      | ok opened =>
          obtain ⟨hopened, hinput⟩ :=
            hstreams.openLines path sh.world.world opened.1 opened.2 hopen
          have hstill : Still K sh { sh with
              world := sh.world.note (.opened path) opened.2 } :=
            still_of_uneventful (uneventful_note sh (.opened path) trivial _) hopened
          have hready := ready_of_still h hstill (noDismissal_note sh rfl _)
          exact hserves opened.1 false hinput hready

/-- A report on an error does nothing to children and jobs, so the shell stays ready. -/
theorem ready_report (h : Ready K sh) (e : ShellError) :
    Ready K (left (report H.recorded e sh)) :=
  ready_of_passes h (passes_of_calms (calms_of_quiet (quiet_report H.recorded e sh)))
    (noDismissal_note sh rfl _)

/-- A run that does not end the shell makes it leave. -/
theorem leaves_conclude {source : CommandSource}
    (hdeparts : Departs K (noted H source sh))
    (hreached : (reached? (noted H source sh)).isSome = true) :
    ∃ code sh', conclude H.recorded (noted H source) sh = .error (.ended (.exited code)) sh' ∧
      Leaves K code sh' := by
  rcases hrun : noted H source sh with ⟨⟨⟩, done⟩ | ⟨e | ending, done⟩ <;>
    rw [hrun] at hdeparts hreached
  · have hleave := leave_eq (α := Unit) H.recorded none done
    refine ⟨_, _, ?_, done, none, hdeparts, hleave⟩
    rw [conclude_of_ok H.recorded hrun, hleave]
  · have hreport : report H.recorded e done = .ok () (left (report H.recorded e done)) := rfl
    have hleave := leave_eq (α := Unit) H.recorded (some failureCode)
      (left (report H.recorded e done))
    refine ⟨_, _, ?_, _, some failureCode, ready_report hdeparts e, hleave⟩
    rw [conclude_of_failed H.recorded hrun, bind_of_ok hreport, hleave]
  · exact nomatch hreached

/-- **Whichever way a shell comes to leave**, it is ready then. -/
theorem departs_conclude (hstreams : K.StreamsApart) {source : CommandSource} (h : Ready K sh)
    {code : Int} (hrun : conclude H.recorded (noted H source) sh =
      .error (.ended (.exited code)) sh') : Leaves K code sh' := by
  have hdeparts := departs_noted hstreams source h
  by_cases hreached : (reached? (noted H source sh)).isSome = true
  · obtain ⟨code', done, hconclude, hleaves⟩ := leaves_conclude hdeparts hreached
    obtain ⟨hcode, rfl⟩ := EStateM.Result.error.inj (hconclude.symm.trans hrun)
    cases hcode
    exact hleaves
  · rcases hnoted : noted H source sh with ⟨⟨⟩, done⟩ | ⟨e | ending, done⟩
    · exact absurd (by rw [hnoted]; rfl) hreached
    · exact absurd (by rw [hnoted]; rfl) hreached
    · rw [hnoted] at hdeparts
      have hsame := (conclude_of_ended H.recorded hnoted).symm.trans hrun
      obtain ⟨hending, rfl⟩ := EStateM.Result.error.inj hsame
      cases hending
      exact hdeparts

/-! ## The run of a program -/

/-- If the commands do the same with a log and without, so does what the shell does in the end. -/
theorem mirrors_conclude (H : Host σ) {noted : Act (Recorded σ) Unit} {action : Act σ Unit}
    (h : Mirrors noted action) : Mirrors (conclude H.recorded noted) (conclude H action) := by
  have hleave : ∀ code?, Mirrors (leave H.recorded code? : Act (Recorded σ) Unit) (leave H code?) :=
    fun code? => mirrors_of_simulates (simulates_leave H.alike_recorded code?)
  intro sh
  have hsame := h sh
  rcases hrun : noted sh with ⟨⟨⟩, done⟩ | ⟨e | ending, done⟩ <;> rw [hrun] at hsame
  · rw [conclude_of_ok H.recorded hrun, conclude_of_ok H hsame.symm]
    exact hleave none done
  · have hfails := mirrors_of_simulates (simulates_bind (simulates_report H.alike_recorded e)
      fun _ => simulates_leave (α := Unit) H.alike_recorded (some failureCode))
    rw [conclude_of_failed H.recorded hrun, conclude_of_failed H hsame.symm]
    exact hfails done
  · rw [conclude_of_ended H.recorded hrun, conclude_of_ended H hsame.symm]
    rfl

/-- What comes of actions that do the same with a log and without is the same but for the log. -/
theorem outcome_of_mirrors {noted : Act (Recorded σ) Unit} {action : Act σ Unit}
    (h : Mirrors noted action) (sh : Shell (Recorded σ)) :
    outcome action (forget sh) = ((outcome noted sh).1, (outcome noted sh).2.world) := by
  unfold outcome EStateM.run
  rw [← h sh]
  rcases noted sh with ⟨⟨⟩, done⟩ | ⟨e | ending, done⟩ <;> rfl

/-- The program can be seen on the recorded host: it does the same there, and what it does is
noted. -/
theorem run_eq_recorded (H : Host σ) {terminal : Bool} {pid : UInt32} {signals : SignalState}
    {arguments : List Text} {world : σ} {invocation : Invocation}
    (hread : read arguments = .accepted invocation) (hgives : invocation.source.GivesCommands) :
    let seen := outcome (conclude H.recorded (noted H invocation.source))
      (recorded (started H terminal pid signals invocation world))
    run H terminal pid signals arguments world = (seen.1, seen.2.world) := by
  intro seen
  have hrun : run H terminal pid signals arguments world =
      outcome (conclude H (commands H invocation.source))
        (started H terminal pid signals invocation world) := by
    rw [run, hread]
    dsimp only
    cases hsource : invocation.source with
    | version => rw [hsource] at hgives; exact hgives.elim
    | missingLine => rw [hsource] at hgives; exact hgives.elim
    | _ => rw [started, hsource]; rfl
  have hmirrors := mirrors_conclude H (mirrors_noted H invocation.source)
  rw [hrun]
  exact outcome_of_mirrors hmirrors
    (recorded (started H terminal pid signals invocation world))

/-! ## The result -/

/-- What is noted of a shell that leaves does not depend on what comes of it. -/
theorem of_agree_of_exited {terminate : ProcessId → σ → Option Errno × σ}
    {r r' : EStateM.Result Stop (Shell (Recorded σ)) Unit} {code : Int}
    (hagree : Agree H.recorded (answering H terminate) r r')
    (hrun : r = .error (.ended (.exited code)) sh) :
    ∃ sh', r' = .error (.ended (.exited code)) sh' ∧ sh' = { sh with world := sh'.world } ∧
      sh'.world.log = sh.world.log := by
  rcases hagree with rfl | ⟨code?, mid, hleave, hleave'⟩
  · exact ⟨sh, hrun, rfl, rfl⟩
  · have hlog := log_leave (H := H) code? mid
    have hlog' := log_leave (H := H.withTerminate terminate) code? mid
    rw [← hleave, hrun] at hlog
    change (left (leave (H.recorded.withTerminate (answering H terminate)) code?
      mid : EStateM.Result Stop (Shell (Recorded σ)) Unit)).world.log = _ at hlog'
    rw [← hleave'] at hlog'
    rw [leave_eq] at hleave hleave'
    rw [hrun] at hleave
    obtain ⟨hstop, rfl⟩ := EStateM.Result.error.inj hleave
    cases hstop
    refine ⟨_, hleave', rfl, ?_⟩
    rw [hleave'] at hlog'
    exact hlog'.trans hlog.symm

/-- Who is ready to leave tells each of its children to end, once, and nobody else but processes
that are outstanding. -/
theorem told_by_leaving {code : Int} (h : Leaves K code sh') :
    ∃ sh : Shell (Recorded σ), sh' = { sh with world := sh'.world } ∧
      sh'.world.log = sh.world.log ++ sh.jobs.pids.map .dismissed ∧
      (∀ event ∈ sh.world.log, event.dismissed? = none) ∧
      (∀ child, (K.children sh.world.world).isChild child = true →
        Outstanding sh.world.log child ∧ sh'.world.log.count (.dismissed child) = 1) ∧
      ∀ child, Event.dismissed child ∈ sh'.world.log → Outstanding sh.world.log child := by
  obtain ⟨sh, code?, hready, hleave⟩ := h
  have hlog := log_leave (H := H) code? sh
  rw [hleave, left_error] at hlog
  rw [leave_eq] at hleave
  obtain ⟨-, rfl⟩ := EStateM.Result.error.inj hleave
  have hnone : ∀ child, Event.dismissed child ∉ sh.world.log := fun child hin =>
    nomatch hready.peace _ hin
  refine ⟨sh, rfl, hlog, hready.peace, fun child hchild => ?_, fun child hin => ?_⟩
  · rw [Children.isChild_iff] at hchild
    have htracked : child ∈ sh.jobs.pids := hready.tracked.tracked child hchild
    have honce : (sh.jobs.pids.map Event.dismissed).count (.dismissed child) = 1 := by
      rw [List.count_map_of_injective _ _ fun _ _ => Event.dismissed.inj]
      exact List.count_eq_one_of_mem hready.tracked.distinct htracked
    refine ⟨hready.owes child htracked, ?_⟩
    have hcount := congrArg (List.count (Event.dismissed child)) hlog
    rw [List.count_append, honce, List.count_eq_zero.mpr (hnone child)] at hcount
    exact hcount
  · rw [hlog] at hin
    obtain ⟨told, htold, hsame⟩ :=
      List.mem_map.mp ((List.mem_append.mp hin).resolve_left (hnone child))
    obtain rfl := Event.dismissed.inj hsame
    exact hready.owes told htold

/-- **Children are told to end when the shell leaves.**  On a host that keeps children as the system
does, take a program that is to execute commands and starts without children.  Unless it is killed,
or waits for ever, it leaves, whether its commands come to an end, one of them tells it to, or an
error ends them.  Up to then nobody is told to end, and then exactly the processes in its table are:
each child that has not been collected, once, and no process whose job has been reported since it
was announced.  Whatever comes of that, the program ends with the same code and the same table, and
has told the same processes. -/
theorem children_told_on_leaving (H : Host σ) (K : Kernel H) (hstreams : K.StreamsApart)
    (terminal : Bool) (pid : UInt32) (signals : SignalState) (arguments : List Text) (world : σ)
    {invocation : Invocation} (hread : read arguments = .accepted invocation)
    (hgives : invocation.source.GivesCommands)
    (hnone : ∀ child, (K.children (openLog H invocation.log world)).isChild child = false) :
    let start := recorded (started H terminal pid signals invocation world)
    let program := fun H : Host σ => conclude H.recorded (noted H invocation.source)
    run H terminal pid signals arguments world =
      ((outcome (program H) start).1, (outcome (program H) start).2.world) ∧
    ((reached? (noted H invocation.source start)).isSome = true →
      ∃ code sh', program H start = .error (.ended (.exited code)) sh') ∧
    ∀ code sh', program H start = .error (.ended (.exited code)) sh' →
      (∃ sh : Shell (Recorded σ), sh' = { sh with world := sh'.world } ∧
        sh'.world.log = sh.world.log ++ sh.jobs.pids.map .dismissed ∧
        (∀ event ∈ sh.world.log, event.dismissed? = none) ∧
        (∀ child, (K.children sh.world.world).isChild child = true →
          Outstanding sh.world.log child ∧ sh'.world.log.count (.dismissed child) = 1) ∧
        ∀ child, Event.dismissed child ∈ sh'.world.log → Outstanding sh.world.log child) ∧
      ∀ terminate, ∃ other, program (H.withTerminate terminate) start =
          .error (.ended (.exited code)) other ∧
        other = { sh' with world := other.world } ∧ other.world.log = sh'.world.log := by
  intro start program
  have hready : Ready K start := ready_fresh _ pid signals hnone
  refine ⟨run_eq_recorded H hread hgives, fun hreached => ?_, fun code sh' hrun => ⟨?_, ?_⟩⟩
  · have hdeparts := departs_noted hstreams invocation.source hready
    obtain ⟨code, sh', hconclude, -⟩ := leaves_conclude hdeparts hreached
    exact ⟨code, sh', hconclude⟩
  · exact told_by_leaving (departs_conclude hstreams hready hrun)
  · intro terminate
    exact of_agree_of_exited (agrees_conclude H terminate invocation.source start) hrun

theorem streamsApart_childWorld : ChildWorld.kernel.StreamsApart where
  standardInput _ _ := Children.later_refl _
  openLines _ _ _ _ hopen := nomatch hopen

/-- A program is started in the background, and the shell leaves: the program is told to end, once,
whatever comes of that. -/
theorem children_told_on_leaving_of_line :
    let arguments := ["-c".toList, "mv &".toList]
    let invocation : Invocation := { log := none, maxJobs := 200, source := .line "mv &".toList }
    let start := recorded (started ChildWorld.host false 1 {} invocation {})
    read arguments = .accepted invocation ∧
    ∃ sh', conclude ChildWorld.host.recorded (noted ChildWorld.host invocation.source) start =
        .error (.ended (.exited 0)) sh' ∧
      sh'.world.log.count (.dismissed ⟨7⟩) = 1 ∧
      ∀ terminate, ∃ other, conclude (ChildWorld.host.withTerminate terminate).recorded
          (noted (ChildWorld.host.withTerminate terminate) invocation.source) start =
          .error (.ended (.exited 0)) other ∧
        other.world.log.count (.dismissed ⟨7⟩) = 1 := by
  intro arguments invocation start
  have hread : read arguments = .accepted invocation := by decide +kernel
  have hnone : ∀ child, (ChildWorld.kernel.children
      (openLog ChildWorld.host invocation.log {})).isChild child = false := fun _ => rfl
  obtain ⟨-, hleaves, htold⟩ := children_told_on_leaving ChildWorld.host ChildWorld.kernel
    streamsApart_childWorld false 1 {} arguments {} hread trivial hnone
  obtain ⟨code, sh', hrun⟩ := hleaves (by decide +kernel)
  have hseen : outcome (conclude ChildWorld.host.recorded (noted ChildWorld.host invocation.source))
      start = (.exited code, sh'.world) := by
    have hrun' : conclude ChildWorld.host.recorded (noted ChildWorld.host invocation.source) start =
        .error (.ended (.exited code)) sh' := hrun
    rw [outcome, EStateM.run, hrun']
  have hcode : (outcome (conclude ChildWorld.host.recorded
      (noted ChildWorld.host invocation.source))
      start).1 = .exited 0 := by decide +kernel
  have hcount : (outcome (conclude ChildWorld.host.recorded
      (noted ChildWorld.host invocation.source))
      start).2.log.count (.dismissed ⟨7⟩) = 1 := by decide +kernel
  rw [hseen] at hcode hcount
  obtain rfl : code = 0 := Ending.exited.inj hcode
  refine ⟨hread, sh', hrun, hcount, fun terminate => ?_⟩
  obtain ⟨other, hother, -, hlog⟩ := (htold 0 sh' hrun).2 terminate
  exact ⟨other, hother, by rw [hlog]; exact hcount⟩

end CommandLine

end Conch
