import Conch.Proofs.Jobs.Announcement
import Conch.Proofs.Shell.Kernel
import Mathlib.Data.List.Count

/-!
# No child is lost

On a host that keeps children as the system does, whatever a shell does in a turn comes down to a
few steps (`Calm`), after which it may notify its user: nothing happens to its children; a
background process is created, announced and tracked; a foreground process is created and collected.

So between any two turns every child that has not been collected is tracked, once, and the log says
of each background process that it has begun before it says anything else about jobs (`AllTracked`).

* `steps_of_turn`: the steps of a turn;
* `allTracked_of_calm`, `allTracked_notified`: what they preserve;
* `allTracked_play`: what a session preserves;
* `no_child_is_lost`: the result.
-/

namespace Conch

namespace Event

/-- The event is about no child and no job. -/
def Unrelated : Event → Prop
  | printed text => Job.cut? text = none
  | created _ pid => pid = none
  | waited .. | asked .. => False
  | _ => True

/-- An event that is about neither children nor jobs nor lines is about no child and no job. -/
theorem unrelated_of_minor {event : Event} (h : event.Minor) : event.Unrelated := by
  cases event with
  | created launch pid => exact absurd h id
  | waited pid answers => exact absurd h id
  | asked pid answer => exact absurd h id
  | handed line heeded stops => trivial
  | printed text => exact h
  | _ => trivial

/-- The name of the process of which the event says that it has begun. -/
def begun? : Event → Option Text
  | printed text => Job.begun? text
  | _ => none

/-- The name of the process of which the event says that it is completed. -/
def completed? : Event → Option Text
  | printed text => Job.completed? text
  | _ => none

/-- The process that was created to run in the background. -/
def behind? : Event → Option ProcessId
  | created launch pid => if launch.command.background then pid else none
  | _ => none

end Event

/-- The turn does nothing to children. -/
def Turn.Fair {σ : Type} {H : Host σ} (K : Kernel H) : Turn σ → Prop
  | read input n => ∀ world, (K.children world).Later (K.children (input.advance n world))
  | meanwhile change => ∀ world, (K.children world).Later (K.children (change world))
  | _ => True

namespace Shell

variable {σ : Type} {H : Host σ} (K : Kernel H) {sh mid sh' : Shell (Recorded σ)}

/-! ## The steps of a turn -/

/-- Nothing has happened to children and jobs. -/
structure Still (sh sh' : Shell (Recorded σ)) : Prop where
  log : ∃ new, sh'.world.log = sh.world.log ++ new ∧ ∀ event ∈ new, event.Unrelated
  jobs : sh'.jobs = sh.jobs
  children : Aged K.recorded sh sh'

/-- A step of a turn, the notification apart. -/
inductive Calm (sh : Shell (Recorded σ)) : Shell (Recorded σ) → Prop where
  | still {sh' : Shell (Recorded σ)} (h : Still K sh sh') : Calm sh sh'
  | tracked {command : Command} {pid : ProcessId} {forked : Shell (Recorded σ)} {jobs : JobTable}
      (hbackground : command.background = true)
      (hfork : Forks H.recorded command sh (some pid) forked)
      (hregister : forked.jobs.register? pid = some jobs) :
      Calm sh { forked with
        jobs
        world := H.recorded.print (Job.begunText pid ++ "\n") forked.world }
  | collected {command : Command} {pid : ProcessId} {forked waited : Shell (Recorded σ)}
      {answers : List WaitAnswer} {result : Except Errno Completion}
      (hfront : command.background = false)
      (hfork : Forks H.recorded command sh (some pid) forked)
      (hwait : Waits H.recorded pid forked answers waited)
      (hresult : conclusion? answers = some result) : Calm sh waited

/-- Any number of such steps. -/
def Calms : Shell (Recorded σ) → Shell (Recorded σ) → Prop :=
  Relation.ReflTransGen (Calm K)

variable {K}

theorem Calm.calms (h : Calm K sh sh') : Calms K sh sh' :=
  .single h

/-- Where only minor events were noted, nothing has happened to jobs, and children have aged at
most. -/
theorem still_of_uneventful (h : Uneventful sh sh') (hlater : Aged K.recorded sh sh') :
    Still K sh sh' := by
  obtain ⟨new, hlog, hnew⟩ := h.log
  have hrelated : ∀ event ∈ new, event.Unrelated := fun event hin =>
    Event.unrelated_of_minor (hnew event hin)
  exact ⟨⟨new, hlog, hrelated⟩, h.jobs, hlater⟩

/-- Quiet steps are calm: they are about neither children nor jobs, and children may only end
meanwhile. -/
theorem calms_of_quiet (h : Quiet H.recorded sh sh') : Calms K sh sh' :=
  (Calm.still (still_of_uneventful (uneventful_of_quiet h) (later_of_quiet K.recorded h))).calms

/-- To hand on a line does nothing to children and jobs. -/
theorem calms_handedOn (line : Text) (sh : Shell (Recorded σ)) :
    Calms K sh (handedOn line sh) := by
  have hstill : Still K sh (handedOn line sh) :=
    ⟨⟨[.handed line (!sh.interpreter.foregroundOnly) sh.signals.stops], rfl, by
      simp [Event.Unrelated]⟩, rfl, aged_refl K.recorded sh⟩
  exact (Calm.still hstill).calms

/-- If no process has been created, nothing has happened to children and jobs. -/
theorem still_of_unborn {command : Command} (h : Forks H.recorded command sh none sh') :
    Still K sh sh' := by
  obtain ⟨early, launch, late, -, hlog, hearly, hlate, hjobs, -⟩ := log_of_forks h
  refine ⟨⟨_, hlog, fun event hin => ?_⟩, hjobs, later_of_forks K.recorded h⟩
  rcases List.mem_append.mp hin with hin | hin
  · exact Event.unrelated_of_minor (hearly event hin)
  · rcases List.mem_cons.mp hin with rfl | hin
    · rfl
    · exact Event.unrelated_of_minor (hlate event hin)

/-- What is printed about a foreground program that has ended. -/
theorem still_concluded (cause : Completion) (sh : Shell (Recorded σ)) :
    Still K sh (concluded H.recorded cause sh) := by
  refine ⟨⟨cause.noticeLines.map .printed, log_printAll H cause.noticeLines sh.world, ?_⟩, rfl,
    later_printAll K.recorded cause.noticeLines sh.world⟩
  intro event hin
  obtain ⟨text, htext, rfl⟩ := List.mem_map.mp hin
  cases cause with
  | exited code => exact nomatch htext
  | killed signal =>
      obtain rfl := List.mem_singleton.mp htext
      have htext := (Completion.killed signal).cut?_text
      exact htext

/-- The shell has gone on by calm steps, and perhaps notified its user after them. -/
def Passes (K : Kernel H) (sh sh' : Shell (Recorded σ)) : Prop :=
  ∃ mid, Calms K sh mid ∧ (sh' = mid ∨ sh' = notified H.recorded mid)

theorem passes_of_calms (h : Calms K sh sh') : Passes K sh sh' :=
  ⟨sh', h, .inl rfl⟩

/-- **A launch passes calmly**, and it has not notified anybody if it has failed. -/
theorem passes_of_launched {command : Command}
    {result : EStateM.Result Stop (Shell (Recorded σ)) Unit}
    (h : Launched H.recorded command sh result) (hreached : reached? result = some sh') :
    Passes K sh sh' ∧ ∀ e mid, result = .error (.failed e) mid → Calms K sh sh' := by
  cases h with
  | refused hreason =>
      obtain rfl := Option.some.inj hreached
      exact ⟨passes_of_calms .refl, fun _ _ _ => .refl⟩
  | unborn hfork =>
      obtain rfl := Option.some.inj hreached
      have hcalms := (Calm.still (still_of_unborn (K := K) hfork)).calms
      exact ⟨passes_of_calms hcalms, fun _ _ _ => hcalms⟩
  | behind hbackground hfork hregister =>
      obtain rfl := Option.some.inj hreached
      exact ⟨⟨_, (Calm.tracked hbackground hfork hregister).calms, .inr rfl⟩,
        fun _ _ hfailed => nomatch hfailed⟩
  | @inFront child forked waited answers cause hfront hfit hfork hwait hcause =>
      obtain rfl := Option.some.inj hreached
      have hcollected := (Calm.collected (K := K) hfront hfork hwait hcause).calms
      have hconcluded := hcollected.trans (Calm.still (still_concluded cause waited)).calms
      exact ⟨⟨_, hconcluded, .inr rfl⟩, fun _ _ hfailed => nomatch hfailed⟩
  | abandoned hfront hfork hwait herrno =>
      obtain rfl := Option.some.inj hreached
      have hcollected := (Calm.collected (K := K) hfront hfork hwait herrno).calms
      exact ⟨passes_of_calms hcollected, fun _ _ _ => hcollected⟩
  | ended hstays => exact nomatch hreached

/-- **Executing a line passes calmly**, and it has not notified anybody if it has failed. -/
theorem passes_of_executed {line : Text}
    {result : EStateM.Result Stop (Shell (Recorded σ)) Unit}
    (h : Executed H.recorded line sh result) (hreached : reached? result = some sh') :
    Passes K sh sh' ∧ ∀ e mid, result = .error (.failed e) mid → Calms K sh sh' := by
  cases h with
  | quietly hplain hleft hquiet =>
      obtain rfl := Option.some.inj (hleft.symm.trans hreached)
      have hcalms : Calms K sh _ := calms_of_quiet hquiet
      exact ⟨passes_of_calms hcalms, fun _ _ _ => hcalms⟩
  | leaves hparse hname => exact nomatch hreached
  | launches hparse hname hlaunch => exact passes_of_launched hlaunch hreached

/-- The turn of a line passes calmly: it is handed on and executed, and an error is perhaps
reported. -/
theorem passes_of_line {line : Text}
    (hreached : reached? ((Turn.line line).act H sh) = some sh') : Passes K sh sh' := by
  have hhanded : Calms K sh (handedOn line sh) := calms_handedOn line sh
  have hexecuted := executed H.recorded line (handedOn line sh)
  have hpasses : ∀ {after}, Passes K (handedOn line sh) after → Passes K sh after := by
    rintro after ⟨mid, hmid, hafter⟩
    exact ⟨mid, hhanded.trans hmid, hafter⟩
  rcases hrun : (Turn.line line).act H sh with ⟨⟨⟩, after⟩ | ⟨e | ending, after⟩
  · rw [hrun] at hreached
    obtain rfl := Option.some.inj hreached
    rcases of_act_line_eq_ok hrun with hexecute | ⟨e, mid, hexecute, hmends, hreport⟩
    · rw [hexecute] at hexecuted
      exact hpasses (passes_of_executed hexecuted rfl).1
    · rw [hexecute] at hexecuted
      have hcalms := (passes_of_executed (K := K) hexecuted rfl).2 _ _ rfl
      exact hpasses (passes_of_calms (hcalms.trans (calms_of_quiet hreport)))
  · rw [hrun] at hreached
    obtain rfl := Option.some.inj hreached
    rw [of_act_line_eq_error hrun] at hexecuted
    exact hpasses (passes_of_executed hexecuted rfl).1
  · rw [hrun] at hreached
    exact nomatch hreached

/-- **Every turn passes calmly** that is fair to the children: it is made of calm steps, and perhaps
of a notification after them. -/
theorem steps_of_turn {turn : Turn σ} (hfair : turn.Fair K)
    (hreached : reached? (turn.act H sh) = some sh') : Passes K sh sh' := by
  have hquiet : (quiet H.recorded).Bounds (turn.act H) → Passes K sh sh' := fun hbounds =>
    passes_of_calms (calms_of_quiet (quiet_of_reached hbounds hreached))
  cases turn with
  | line text => exact passes_of_line hreached
  | signals => exact hquiet (quiet_takeSignals H.recorded)
  | poll => exact hquiet (quiet_pollSignals H.recorded)
  | reset => exact hquiet fun _ => .single (.memory _ rfl)
  | say text hother => exact hquiet (quiet_print H.recorded hother)
  | fault errno => exact hquiet ((quiet H.recorded).bounds_throw _)
  | stall => exact nomatch hreached
  | quit => exact hquiet (quiet_leave H.recorded none)
  | notify =>
      rw [Turn.act, notify_eq] at hreached
      obtain rfl := Option.some.inj hreached
      exact ⟨sh, .refl, .inr rfl⟩
  | read input n =>
      obtain rfl := Option.some.inj hreached
      have hstill : Still K sh { sh with world := input.recorded.advance n sh.world } :=
        still_of_uneventful (uneventful_note sh (.read _) trivial _) (hfair sh.world.world)
      exact passes_of_calms (Calm.still hstill).calms
  | meanwhile change =>
      obtain rfl := Option.some.inj hreached
      have hstill : Still K sh { sh with
          world := { sh.world with world := change sh.world.world } } :=
        ⟨⟨[], by simp⟩, rfl, hfair sh.world.world⟩
      exact passes_of_calms (Calm.still hstill).calms

/-! ## What the steps note -/

/-- What is noted when a background process is created and announced. -/
theorem log_tracked {command : Command} {pid : ProcessId} {forked : Shell (Recorded σ)}
    (h : Forks H.recorded command sh (some pid) forked) :
    ∃ early launch late, launch.command = command ∧
      (H.recorded.print (Job.begunText pid ++ "\n") forked.world).log = sh.world.log ++
        (early ++ .created launch (some pid) ::
          (late ++ [.printed (Job.begunText pid ++ "\n")])) ∧
      (∀ event ∈ early, event.Minor) ∧ ∀ event ∈ late, event.Minor := by
  obtain ⟨early, launch, late, hcommand, hforked, hearly, hlate, -⟩ := log_of_forks h
  refine ⟨early, launch, late, hcommand, ?_, hearly, hlate⟩
  have hprinted : (H.recorded.print (Job.begunText pid ++ "\n") forked.world).log =
      forked.world.log ++ [.printed (Job.begunText pid ++ "\n")] := rfl
  rw [hprinted, hforked]
  simp only [List.append_assoc, List.cons_append]

/-- What is noted when a foreground process is created and waited for. -/
theorem log_collected {command : Command} {pid : ProcessId} {forked : Shell (Recorded σ)}
    {answers : List WaitAnswer} (hfork : Forks H.recorded command sh (some pid) forked)
    (hwait : Waits H.recorded pid forked answers sh') :
    ∃ new, sh'.world.log = sh.world.log ++ new ∧ (∀ event ∈ new, event.Minor ∨
        (∃ launch, launch.command = command ∧ event = .created launch (some pid)) ∨
        event = .waited pid answers) ∧
      sh'.jobs = sh.jobs := by
  obtain ⟨early, launch, late, hcommand, hforked, hearly, hlate, hjobs, -⟩ := log_of_forks hfork
  obtain ⟨early', late', hwaited, hearly', hlate', hjobs', -⟩ := log_of_waits hwait
  rw [hforked, List.append_assoc] at hwaited
  refine ⟨_, hwaited, fun event hin => ?_, hjobs'.trans hjobs⟩
  simp only [List.mem_append, List.mem_cons] at hin
  rcases hin with (hin | rfl | hin) | hin | rfl | hin
  · exact .inl (hearly event hin)
  · exact .inr (.inl ⟨launch, hcommand, rfl⟩)
  · exact .inl (hlate event hin)
  · exact .inl (hearly' event hin)
  · exact .inr (.inr rfl)
  · exact .inl (hlate' event hin)

/-! ## What the log says about jobs -/

/-- Each background process is announced once, in the order of creation, and before anything else is
said about jobs. -/
structure Announces (log : List Event) : Prop where
  once : log.filterMap Event.begun? =
    (log.filterMap Event.behind?).map fun pid => pid.text.toList
  first : ∀ before launch pid after, log = before ++ .created launch (some pid) :: after →
    launch.command.background = true →
    ∃ between rest, after = between ++ .printed (Job.begunText pid ++ "\n") :: rest ∧
      ∀ event ∈ between, event.Minor

/-- Whatever is said to be completed has been said before to have begun. -/
def Confirms (known log : List Event) : Prop :=
  ∀ before event after name, log = before ++ event :: after → event.completed? = some name →
    name ∈ (known ++ before).filterMap Event.begun?

section Logs

variable {log new : List Event}

/-- An element of two lists put together stands in one of them. -/
theorem split_append {before after : List Event} {event : Event}
    (h : log ++ new = before ++ event :: after) :
    (∃ rest, log = before ++ event :: rest ∧ after = rest ++ new) ∨
    ∃ rest, before = log ++ rest ∧ new = rest ++ event :: after := by
  rcases List.append_eq_append_iff.mp h with ⟨rest, hbefore, hnew⟩ | ⟨rest, hlog, hrest⟩
  · exact .inr ⟨rest, hbefore, hnew⟩
  · cases rest with
    | nil => exact .inr ⟨[], by simpa using hlog.symm, by simpa using hrest.symm⟩
    | cons first rest =>
        obtain ⟨rfl, rfl⟩ := List.cons.inj hrest
        exact .inl ⟨rest, hlog, rfl⟩

/-- Two parts of a log announce what they must if each of them does. -/
theorem announces_append (h : Announces log) (h' : Announces new) : Announces (log ++ new) := by
  refine ⟨?_, fun before launch pid after hsplit hbackground => ?_⟩
  · rw [List.filterMap_append, List.filterMap_append, List.map_append, h.once, h'.once]
  · rcases split_append hsplit with ⟨rest, hlog, rfl⟩ | ⟨rest, -, hnew⟩
    · obtain ⟨between, more, rfl, hminor⟩ := h.first before launch pid rest hlog hbackground
      exact ⟨between, more ++ new, by simp, hminor⟩
    · exact h'.first rest launch pid after hnew hbackground

/-- A part of a log in which no background process begins and none is announced has nothing to
announce. -/
theorem announces_of_silent
    (hnew : ∀ event ∈ new, event.begun? = none ∧ event.behind? = none) : Announces new := by
  refine ⟨?_, fun before launch pid after hsplit hbackground => ?_⟩
  · rw [List.filterMap_eq_nil_iff.mpr fun event hin => (hnew event hin).1,
      List.filterMap_eq_nil_iff.mpr fun event hin => (hnew event hin).2]
    rfl
  · have hin : Event.created launch (some pid) ∈ new := by simp [hsplit]
    have hnone := (hnew _ hin).2
    rw [Event.behind?, if_pos hbackground] at hnone
    exact nomatch hnone

/-- What is confirmed in two parts of a log, where the second one may refer to the first, is
confirmed in both together. -/
theorem confirms_append (h : Confirms [] log) (h' : Confirms log new) :
    Confirms [] (log ++ new) := by
  intro before event after name hsplit hname
  rcases split_append hsplit with ⟨rest, hlog, -⟩ | ⟨rest, rfl, hnew⟩
  · exact h before event rest name hlog hname
  · exact h' rest event after name hnew hname

/-- A part of a log that reports no completion has nothing to confirm. -/
theorem confirms_of_silent (hnew : ∀ event ∈ new, event.completed? = none) : Confirms log new := by
  intro before event after name hsplit hname
  have hin : event ∈ new := by simp [hsplit]
  rw [hnew event hin] at hname
  exact nomatch hname

end Logs

/-- An event that is about no child and no job announces nothing and reports nothing. -/
theorem silent_of_unrelated {event : Event} (h : event.Unrelated) :
    (event.begun? = none ∧ event.behind? = none) ∧ event.completed? = none := by
  cases event with
  | printed text => exact ⟨⟨Job.begun?_eq_none h, rfl⟩, Job.completed?_eq_none h⟩
  | created launch pid =>
      obtain rfl : pid = none := h
      exact ⟨⟨rfl, by simp [Event.behind?]⟩, rfl⟩
  | _ => exact ⟨⟨rfl, rfl⟩, rfl⟩

theorem silent_of_minor {event : Event} (h : event.Minor) :
    (event.begun? = none ∧ event.behind? = none) ∧ event.completed? = none :=
  silent_of_unrelated (Event.unrelated_of_minor h)

/-- What is noted when a background process is created and announced. -/
theorem announces_behind {early late : List Event} {launch : Launch} {pid : ProcessId}
    (hbackground : launch.command.background = true) (hearly : ∀ event ∈ early, event.Minor)
    (hlate : ∀ event ∈ late, event.Minor) :
    Announces (early ++ .created launch (some pid) ::
      (late ++ [.printed (Job.begunText pid ++ "\n")])) := by
  refine announces_append (announces_of_silent fun event hin => ?_) ⟨?_, ?_⟩
  · exact (silent_of_minor (hearly event hin)).1
  · have hbegun := List.filterMap_eq_nil_iff.mpr fun event hin =>
      (silent_of_minor (hlate event hin)).1.1
    have hbehind := List.filterMap_eq_nil_iff.mpr fun event hin =>
      (silent_of_minor (hlate event hin)).1.2
    have hsaid : (Event.printed (Job.begunText pid ++ "\n")).begun? = some pid.text.toList :=
      Job.begun?_begunText pid
    have hcreated : (Event.created launch (some pid)).behind? = some pid := if_pos hbackground
    rw [List.filterMap_cons_none rfl, List.filterMap_append, hbegun, List.filterMap_cons_some hsaid,
      List.filterMap_cons_some hcreated, List.filterMap_append, hbehind]
    rfl
  · intro before launch' pid' after hsplit hbackground'
    cases before with
    | nil =>
        obtain ⟨hsame, rfl⟩ := List.cons.inj hsplit
        obtain ⟨rfl, hpid⟩ := Event.created.inj hsame
        obtain rfl := Option.some.inj hpid
        exact ⟨late, [], rfl, hlate⟩
    | cons first before =>
        obtain ⟨-, hrest⟩ := List.cons.inj hsplit
        have hin : Event.created launch' (some pid') ∈
            late ++ [.printed (Job.begunText pid ++ "\n")] := by simp [hrest]
        rcases List.mem_append.mp hin with hin | hin
        · exact absurd (hlate _ hin) id
        · exact nomatch List.mem_singleton.mp hin

/-! ## What the steps preserve -/

/-- Every child is tracked, once, and every process that is tracked has been announced. -/
structure AllTracked (K : Kernel H) (sh : Shell (Recorded σ)) : Prop where
  distinct : sh.jobs.pids.Nodup
  tracked : ∀ pid, K.recorded.status? sh pid ≠ none → pid ∈ sh.jobs.pids
  announced : ∀ pid ∈ sh.jobs.pids, pid.text.toList ∈ sh.world.log.filterMap Event.begun?
  announces : Announces sh.world.log
  confirms : Confirms [] sh.world.log

/-- What happens to a shell that tracks all its children, if the table stays as it is and nothing is
said about jobs. -/
theorem allTracked_of_silent {new : List Event} (h : AllTracked K sh)
    (hlog : sh'.world.log = sh.world.log ++ new)
    (hnew : ∀ event ∈ new, (event.begun? = none ∧ event.behind? = none) ∧ event.completed? = none)
    (hjobs : sh'.jobs = sh.jobs)
    (hchildren : ∀ pid, K.recorded.status? sh' pid ≠ none → K.recorded.status? sh pid ≠ none) :
    AllTracked K sh' := by
  refine ⟨by rw [hjobs]; exact h.distinct, fun pid hchild => ?_, fun pid hin => ?_, ?_, ?_⟩
  · rw [hjobs]
    exact h.tracked pid (hchildren pid hchild)
  · rw [hjobs] at hin
    rw [hlog, List.filterMap_append]
    exact List.mem_append_left _ (h.announced pid hin)
  · rw [hlog]
    exact announces_append h.announces (announces_of_silent fun event hin => (hnew event hin).1)
  · rw [hlog]
    exact confirms_append h.confirms (confirms_of_silent fun event hin => (hnew event hin).2)

/-- All children are tracked after something that was about neither children nor jobs. -/
theorem allTracked_of_still (h : AllTracked K sh) (hstill : Still K sh sh') : AllTracked K sh' := by
  obtain ⟨new, hlog, hnew⟩ := hstill.log
  refine allTracked_of_silent h hlog (fun event hin => silent_of_unrelated (hnew event hin))
    hstill.jobs fun pid hchild hnone => ?_
  exact hchild ((eq_none_iff_of_ages (hstill.children pid)).mpr hnone)

/-- A program in the foreground comes and goes: it is collected before the next line, so that it
need not be tracked. -/
theorem allTracked_collected {command : Command} {pid : ProcessId} {forked : Shell (Recorded σ)}
    {answers : List WaitAnswer} {result : Except Errno Completion} (h : AllTracked K sh)
    (hfront : command.background = false)
    (hfork : Forks H.recorded command sh (some pid) forked)
    (hwait : Waits H.recorded pid forked answers sh')
    (hresult : conclusion? answers = some result) : AllTracked K sh' := by
  obtain ⟨new, hlog, hnew, hjobs⟩ := log_collected hfork hwait
  obtain ⟨-, hborn, hothers⟩ := born_of_forks K.recorded hfork
  obtain ⟨hgone, hothers'⟩ := gone_of_waits K.recorded hwait hborn hresult
  refine allTracked_of_silent h hlog (fun event hin => ?_) hjobs fun other hchild hnone => ?_
  · rcases hnew event hin with hminor | ⟨launch, rfl, rfl⟩ | rfl
    · exact silent_of_minor hminor
    · exact ⟨⟨rfl, by simp [Event.behind?, hfront]⟩, rfl⟩
    · exact ⟨⟨rfl, rfl⟩, rfl⟩
  · by_cases hother : other = pid
    · exact hchild (hother ▸ hgone)
    · have hages := ages_trans (hothers other hother) (hothers' other hother)
      exact hchild ((eq_none_iff_of_ages hages).mpr hnone)

/-- A program in the background comes and stays: it is tracked and announced as soon as it is
there. -/
theorem allTracked_tracked {command : Command} {pid : ProcessId} {forked : Shell (Recorded σ)}
    {jobs : JobTable} (h : AllTracked K sh) (hbackground : command.background = true)
    (hfork : Forks H.recorded command sh (some pid) forked)
    (hregister : forked.jobs.register? pid = some jobs) :
    AllTracked K { forked with
      jobs
      world := H.recorded.print (Job.begunText pid ++ "\n") forked.world } := by
  obtain ⟨early, launch, late, rfl, hlog, hearly, hlate⟩ := log_tracked hfork
  obtain ⟨-, -, hothers⟩ := born_of_forks K.recorded hfork
  rw [jobs_of_forks hfork] at hregister
  have hpids := TrackedJobs.mem_pids_of_register? hregister
  refine ⟨TrackedJobs.nodup_pids_of_register? hregister h.distinct, fun other hchild => ?_,
    fun other hin => ?_, ?_, ?_⟩
  · refine (hpids other).mpr ?_
    by_cases hother : other = pid
    · exact .inl hother
    · have hprinted := K.recorded.print (Job.begunText pid ++ "\n") forked.world
      have hages := ages_trans (hothers other hother) (hprinted other)
      have hbefore := mt (eq_none_iff_of_ages hages).mpr hchild
      exact .inr (h.tracked other hbefore)
  · change other.text.toList ∈ (H.recorded.print _ forked.world).log.filterMap Event.begun?
    rw [hlog, List.filterMap_append]
    rcases (hpids other).mp hin with rfl | hin
    · have hsaid : (Event.printed (Job.begunText other ++ "\n")).begun? =
          some other.text.toList := Job.begun?_begunText other
      refine List.mem_append_right _ (List.mem_filterMap.mpr ⟨_, ?_, hsaid⟩)
      simp
    · exact List.mem_append_left _ (h.announced other hin)
  · change Announces (H.recorded.print _ forked.world).log
    rw [hlog]
    exact announces_append h.announces (announces_behind hbackground hearly hlate)
  · change Confirms [] (H.recorded.print _ forked.world).log
    rw [hlog]
    refine confirms_append h.confirms (confirms_of_silent fun event hin => ?_)
    simp only [List.mem_append, List.mem_cons, List.not_mem_nil, or_false] at hin
    rcases hin with hin | rfl | hin | rfl
    · exact (silent_of_minor (hearly event hin)).2
    · rfl
    · exact (silent_of_minor (hlate event hin)).2
    · exact Job.completed?_begunText pid

/-- **A calm step loses no child**: it creates and tracks one, collects one that it has created, or
leaves all as they are. -/
theorem allTracked_of_calm (h : AllTracked K sh) (hcalm : Calm K sh sh') : AllTracked K sh' := by
  cases hcalm with
  | still hstill => exact allTracked_of_still h hstill
  | tracked hbackground hfork hregister => exact allTracked_tracked h hbackground hfork hregister
  | collected hfront hfork hwait hresult => exact allTracked_collected h hfront hfork hwait hresult

theorem allTracked_of_calms (h : AllTracked K sh) (hcalms : Calms K sh sh') : AllTracked K sh' := by
  induction hcalms with
  | refl => exact h
  | tail _ hcalm ih => exact allTracked_of_calm ih hcalm

/-- What a notification says is about jobs that were tracked, and that they are completed. -/
theorem said_of_notified (sh : Shell (Recorded σ)) :
    ∃ new, (notified H.recorded sh).world.log = sh.world.log ++ new ∧ ∀ event ∈ new,
      (event.begun? = none ∧ event.behind? = none) ∧
        ∀ name, event.completed? = some name → ∃ pid ∈ sh.jobs.pids, name = pid.text.toList := by
  have hlog := log_notified H sh
  rw [List.append_assoc] at hlog
  refine ⟨_, hlog, fun event hin => ?_⟩
  rcases List.mem_append.mp hin with hin | hin
  · obtain ⟨asked, -, rfl⟩ := List.mem_map.mp hin
    exact ⟨⟨rfl, rfl⟩, nofun⟩
  · obtain ⟨job, hjob, rfl⟩ := List.mem_map.mp hin
    obtain ⟨hpid, cause, hcause⟩ := JobTable.of_mem_completed H.recorded.poll hjob
    refine ⟨⟨Job.begun?_text hcause, rfl⟩, fun name hname => ⟨job.pid, hpid, ?_⟩⟩
    have hsaid : (Event.printed (job.text ++ "\n")).completed? = some job.pid.text.toList :=
      Job.completed?_text hcause
    exact Option.some.inj (hname.symm.trans hsaid)

/-- A child after a notification was one before, and its job has stayed in the table. -/
theorem tracked_of_notified (hdistinct : sh.jobs.pids.Nodup) {pid : ProcessId}
    (hin : pid ∈ sh.jobs.pids) (hchild : K.recorded.status? (notified H.recorded sh) pid ≠ none) :
    pid ∈ (notified H.recorded sh).jobs.pids := by
  obtain ⟨job, hjob, rfl⟩ := List.mem_map.mp hin
  obtain ⟨asked, hasked, hsame⟩ : ∃ asked ∈ JobTable.consult H.recorded.poll sh.jobs.jobs sh.world,
      asked.1 = job := by
    rw [← JobTable.map_fst_consult H.recorded.poll sh.jobs.jobs sh.world] at hjob
    exact List.mem_map.mp hjob
  have hafter := mt (eq_none_iff_of_ages (later_notified K.recorded sh job.pid)).mpr hchild
  obtain ⟨-, hkept⟩ := kept_of_told (hsame ▸ told_of_sweep K.recorded hdistinct hasked) hafter
  have hstays : JobTable.stays? asked = some job :=
    JobTable.stays?_eq_some_iff.mpr ⟨hsame, hkept⟩
  have hremains : job ∈ (notified H.recorded sh).jobs.jobs := by
    have htable : (notified H.recorded sh).jobs.jobs =
        (JobTable.sweepJobs H.recorded.poll sh.jobs.jobs sh.world).remaining := rfl
    rw [htable, JobTable.remaining_eq]
    exact List.mem_filterMap.mpr ⟨asked, hasked, hstays⟩
  exact List.mem_map_of_mem hremains

/-- A notification takes off the table only what it has collected, and so loses no child. -/
theorem allTracked_notified (h : AllTracked K sh) : AllTracked K (notified H.recorded sh) := by
  obtain ⟨new, hlog, hnew⟩ := said_of_notified (H := H) sh
  have hpids : (notified H.recorded sh).jobs.pids.Sublist sh.jobs.pids :=
    (JobTable.remaining_sublist H.recorded.poll sh.jobs.jobs sh.world).map Job.pid
  refine ⟨hpids.nodup h.distinct, fun pid hchild => ?_, fun pid hin => ?_, ?_, ?_⟩
  · have hbefore := mt (none_of_notified K.recorded) hchild
    exact tracked_of_notified h.distinct (h.tracked pid hbefore) hchild
  · rw [hlog, List.filterMap_append]
    exact List.mem_append_left _ (h.announced pid (hpids.subset hin))
  · rw [hlog]
    exact announces_append h.announces (announces_of_silent fun event hin => (hnew event hin).1)
  · rw [hlog]
    refine confirms_append h.confirms fun before event after name hsplit hname => ?_
    have hin : event ∈ new := by simp [hsplit]
    obtain ⟨pid, hpid, rfl⟩ := (hnew event hin).2 name hname
    rw [List.filterMap_append]
    exact List.mem_append_left _ (h.announced pid hpid)

/-- **What a turn preserves**: every child is tracked, and what is tracked was announced. -/
theorem allTracked_turn {turn : Turn σ} (h : AllTracked K sh) (hfair : turn.Fair K)
    (hreached : reached? (turn.act H sh) = some sh') : AllTracked K sh' := by
  obtain ⟨mid, hcalms, rfl | rfl⟩ := steps_of_turn hfair hreached
  · exact allTracked_of_calms h hcalms
  · exact allTracked_notified (allTracked_of_calms h hcalms)

/-- **What a session preserves**: every child is tracked, and what is tracked was announced. -/
theorem allTracked_play {turns : List (Turn σ)} (h : AllTracked K sh)
    (hfair : ∀ turn ∈ turns, turn.Fair K)
    (hreached : reached? (play H turns sh) = some sh') : AllTracked K sh' := by
  induction turns generalizing sh with
  | nil =>
      obtain rfl := Option.some.inj hreached
      exact h
  | cons turn turns ih =>
      obtain ⟨hturn, hrest⟩ := List.forall_mem_cons.mp hfair
      rcases reached?_play_cons H hreached with hstopped | ⟨mid, hmid, hthen⟩
      · exact allTracked_turn h hturn hstopped
      · exact ih (allTracked_turn h hturn hmid) hrest hthen

/-- A new shell in a world without children tracks all of them, since there are none. -/
theorem allTracked_fresh (config : Config) (pid : UInt32) (signals : SignalState) {world : σ}
    (hnone : ∀ child, (K.children world).isChild child = false) :
    AllTracked K (recorded (fresh config pid signals world)) where
  distinct := List.nodup_nil
  tracked child hchild :=
    absurd ((Children.isChild_eq_false_iff (K.children world) child).mp (hnone child)) hchild
  announced _ hin := nomatch hin
  announces := announces_of_silent fun _ hin => nomatch hin
  confirms _ _ _ _ hsplit := by simp [recorded] at hsplit

/-! ## Programs in the foreground -/

/-- Whatever has been created on the way is no child any more. -/
def Collects (K : Kernel H) (sh sh' : Shell (Recorded σ)) : Prop :=
  ∃ new, sh'.world.log = sh.world.log ++ new ∧
    ∀ launch child, Event.created launch (some child) ∈ new → K.recorded.status? sh' child = none

/-- What was created in the first part and collected is no child after the second part either, if
nobody comes to life again. -/
theorem Collects.trans (h : Collects K sh mid) (h' : Collects K mid sh')
    (hnone : ∀ child, K.recorded.status? mid child = none → K.recorded.status? sh' child = none) :
    Collects K sh sh' := by
  obtain ⟨new, hlog, hnew⟩ := h
  obtain ⟨new', hlog', hnew'⟩ := h'
  refine ⟨new ++ new', by rw [hlog', hlog, List.append_assoc], fun launch child hin => ?_⟩
  rcases List.mem_append.mp hin with hin | hin
  · exact hnone child (hnew launch child hin)
  · exact hnew' launch child hin

theorem collects_still (h : Still K sh sh') : Collects K sh sh' := by
  obtain ⟨new, hlog, hnew⟩ := h.log
  exact ⟨new, hlog, fun launch child hin => nomatch hnew _ hin⟩

theorem collects_notified (sh : Shell (Recorded σ)) :
    Collects K sh (notified H.recorded sh) := by
  have hlog := log_notified H sh
  rw [List.append_assoc] at hlog
  refine ⟨_, hlog, fun launch child hin => ?_⟩
  rcases List.mem_append.mp hin with hin | hin
  · obtain ⟨asked, -, hasked⟩ := List.mem_map.mp hin
    exact nomatch hasked
  · obtain ⟨job, -, hsaid⟩ := List.mem_map.mp hin
    exact nomatch hsaid

/-- A program in the foreground that was waited for to its end has been collected, if it has an end
that can be told. -/
theorem collects_waited {command : Command} {pid : ProcessId} {forked : Shell (Recorded σ)}
    {answers : List WaitAnswer} {result : Except Errno Completion}
    (hfork : Forks H.recorded command sh (some pid) forked)
    (hwait : Waits H.recorded pid forked answers sh')
    (hresult : conclusion? answers = some result) : Collects K sh sh' := by
  obtain ⟨new, hlog, hnew, -⟩ := log_collected hfork hwait
  obtain ⟨-, hborn, -⟩ := born_of_forks K.recorded hfork
  obtain ⟨hgone, -⟩ := gone_of_waits K.recorded hwait hborn hresult
  refine ⟨new, hlog, fun launch child hin => ?_⟩
  rcases hnew _ hin with hminor | ⟨_, -, hcreated⟩ | hwaited
  · exact absurd hminor id
  · obtain ⟨-, hchild⟩ := Event.created.inj hcreated
    obtain rfl := Option.some.inj hchild
    exact hgone
  · exact nomatch hwaited

/-- **A program in the foreground is collected** by the time that its launch has come to an end. -/
theorem collects_launched {command : Command}
    {result : EStateM.Result Stop (Shell (Recorded σ)) Unit} (hfront : command.background = false)
    (h : Launched H.recorded command sh result) (hreached : reached? result = some sh') :
    Collects K sh sh' := by
  cases h with
  | refused hreason =>
      obtain rfl := Option.some.inj hreached
      exact ⟨[], by simp, fun _ _ hin => nomatch hin⟩
  | unborn hfork =>
      obtain rfl := Option.some.inj hreached
      exact collects_still (still_of_unborn hfork)
  | behind hbackground hfork hregister => exact nomatch hfront.symm.trans hbackground
  | @inFront child forked waited answers cause hfront hfit hfork hwait hcause =>
      obtain rfl := Option.some.inj hreached
      have hconcluded := still_concluded (K := K) cause waited
      have hstay : ∀ child, K.recorded.status? waited child = none →
          K.recorded.status? (concluded H.recorded cause waited) child = none := fun child =>
        (eq_none_iff_of_ages (hconcluded.children child)).mpr
      have hdone := (collects_waited hfork hwait hcause).trans (collects_still hconcluded) hstay
      exact hdone.trans (collects_notified _) fun child => none_of_notified K.recorded
  | abandoned hfront hfork hwait herrno =>
      obtain rfl := Option.some.inj hreached
      exact collects_waited hfork hwait herrno
  | ended hstays => exact nomatch hreached

/-! ## The result -/

/-- **No child is lost.**  On a host that keeps children as the system does, in every session of a
new shell that has no children, whatever its turns are and whenever children end: every child that
has not been collected is tracked, exactly once; each background process was announced exactly once,
in the order of creation and before anything was said about jobs after its creation; nothing was
said to be completed that had not been said to have begun; and once the launch of a program in the
foreground has come to an end, well or not, what it created has been collected.  To serve a stream
and leave is such a session. -/
theorem no_child_is_lost (K : Kernel H) (config : Config) (pid : UInt32) (signals : SignalState)
    (world : σ) (hnone : ∀ child, (K.children world).isChild child = false)
    (turns : List (Turn σ)) (hfair : ∀ turn ∈ turns, turn.Fair K) :
    (∀ sh, reached? (play H turns (recorded (fresh config pid signals world))) = some sh →
      (∀ child, (K.children sh.world.world).isChild child = true → sh.jobs.pids.count child = 1) ∧
      (∀ child, (sh.world.log.filterMap Event.begun?).count child.text.toList =
        (sh.world.log.filterMap Event.behind?).count child) ∧
      Announces sh.world.log ∧ Confirms [] sh.world.log ∧
      ∀ command after, command.background = false →
        reached? (launch H.recorded command sh) = some after →
        ∃ new, after.world.log = sh.world.log ++ new ∧ ∀ launch child,
          Event.created launch (some child) ∈ new →
            (K.children after.world.world).isChild child = false) ∧
    ∀ (input : InputStream σ) (prompted : Bool) (fuel : Nat) (sh : Shell (Recorded σ)),
      (∀ n world, (K.children world).Later (K.children (input.advance n world))) →
      ∃ turns : List (Turn σ), (∀ turn ∈ turns, turn.Fair K) ∧ play H turns sh =
        (do serve H.recorded input.recorded (if prompted then some promptText else none)
              (executeNoted H) fuel {}
            leave H.recorded none) sh := by
  refine ⟨fun sh hreached => ?_, fun input prompted fuel sh hinput => ?_⟩
  · have hstart := allTracked_fresh config pid signals hnone
    have htracks := allTracked_play hstart hfair hreached
    refine ⟨fun child hchild => ?_, fun child => ?_, htracks.announces, htracks.confirms, ?_⟩
    · rw [Children.isChild_iff] at hchild
      exact List.count_eq_one_of_mem htracks.distinct (htracks.tracked child hchild)
    · rw [htracks.announces.once]
      exact List.count_map_of_injective _ _ (fun _ _ => ProcessId.text_injective) child
    · intro command after hfront hafter
      obtain ⟨new, hlog, hnew⟩ :=
        collects_launched (K := K) hfront (launched H.recorded command sh) hafter
      refine ⟨new, hlog, fun launch child hin => ?_⟩
      exact (Children.isChild_eq_false_iff _ child).mpr (hnew launch child hin)
  · obtain ⟨turns, hserves, hplay⟩ :=
      exists_turns_of_serve H input (cut?_promptText prompted) fuel {} sh
    refine ⟨turns, fun turn hin => ?_, hplay⟩
    have hturn := hserves turn hin
    cases turn with
    | read other n =>
        obtain rfl : other = input := hturn
        exact hinput n
    | meanwhile change => exact absurd hturn id
    | _ => trivial

/-- A program is started in the background and another one in the foreground; then the first one
ends and its end is reported. -/
def trackedTurns : List (Turn ChildWorld) :=
  [.line "mv &".toList, .line "sh".toList, .meanwhile (ChildWorld.finish ⟨7⟩ (.exited 3)), .notify]

/-- The first of these turns leave a child that is tracked; at the end both have been collected. -/
theorem no_child_is_lost_in_childWorld :
    let early := left (play ChildWorld.host (trackedTurns.take 3) (recorded ChildWorld.shell))
    let late := left (play ChildWorld.host trackedTurns (recorded ChildWorld.shell))
    early.jobs.pids.count ⟨7⟩ = 1 ∧ early.world.world.children.isChild ⟨8⟩ = false ∧
      Announces late.world.log ∧ late.jobs.pids = [] ∧
      late.world.log.filterMap Event.completed? = [['7']] := by
  intro early late
  have hfair : ∀ turn ∈ trackedTurns, turn.Fair ChildWorld.kernel := by
    simp only [trackedTurns, List.forall_mem_cons]
    exact ⟨trivial, trivial, fun world => world.children.later_finish ⟨7⟩ (.exited 3), trivial,
      fun _ hin => nomatch hin⟩
  have hearly := no_child_is_lost ChildWorld.kernel {} 1 {} {} (fun _ => rfl) (trackedTurns.take 3)
    fun turn hin => hfair turn (List.mem_of_mem_take hin)
  have hlate := no_child_is_lost ChildWorld.kernel {} 1 {} {} (fun _ => rfl) trackedTurns hfair
  have htracked := (hearly.1 early (reached?_of_isSome (by decide +kernel))).1
  have hsaid := (hlate.1 late (reached?_of_isSome (by decide +kernel))).2.2.1
  exact ⟨htracked ⟨7⟩ (by decide +kernel), by decide +kernel, hsaid, by decide +kernel,
    by decide +kernel⟩

end Shell

end Conch
