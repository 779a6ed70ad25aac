import Conch.Proofs.Shell.ExitRule
import Conch.Proofs.Shell.Ownership

/-!
# Telling processes to end

A shell tells processes to end when it leaves and at no other time, and it looks at nothing that
comes of it.  So two hosts that differ only in what comes of it cannot be told apart before a shell
leaves, and it leaves either of them at the same moment, in the same state and with the same code
(`agrees_conclude`).

Nothing else that a shell does tells anybody to end: it is the same on a host on which that is not
even noted, so it is not noted (`noDismissal_execute`, `noDismissal_turn`).
-/

namespace Conch

/-- The host, but for what comes of telling a process to end. -/
def Host.withTerminate {σ : Type} (H : Host σ) (terminate : ProcessId → σ → Option Errno × σ) :
    Host σ :=
  { H with terminate }

namespace Shell

section Agreement

variable {σ α β : Type} (H : Host σ) (terminate : ProcessId → σ → Option Errno × σ)

/-- The results are the same, or those of a shell that leaves either host. -/
def Agree (r r' : EStateM.Result Stop (Shell σ) α) : Prop :=
  r' = r ∨ ∃ code? mid, r = (leave H code? : Act σ α) mid ∧
    r' = (leave (H.withTerminate terminate) code? : Act σ α) mid

/-- Actions that come to the same, wherever they start, or leave at the same moment. -/
def Agrees (action action' : Act σ α) : Prop :=
  ∀ sh, Agree H terminate (action sh) (action' sh)

theorem agrees_refl (action : Act σ α) : Agrees H terminate action action :=
  fun _ => .inl rfl

/-- To leave agrees with itself on a host that takes the telling of jobs otherwise: this is the one
place where they part. -/
theorem agrees_leave (code? : Option Int) :
    Agrees H terminate (leave H code? : Act σ α) (leave (H.withTerminate terminate) code?) :=
  fun sh => .inr ⟨code?, sh, rfl, rfl⟩

variable {H terminate}

/-- If two parts agree on both hosts, so does the one after the other, since a shell that has left
does nothing more. -/
theorem agrees_bind {action action' : Act σ α} {rest rest' : α → Act σ β}
    (haction : Agrees H terminate action action')
    (hrest : ∀ a, Agrees H terminate (rest a) (rest' a)) :
    Agrees H terminate (action >>= rest) (action' >>= rest') := by
  intro sh
  rcases haction sh with hsame | ⟨code?, mid, hrun, hrun'⟩
  · rcases hrun : action sh with ⟨a, mid⟩ | ⟨stop, mid⟩ <;> rw [hrun] at hsame
    · rw [bind_of_ok hrun, bind_of_ok hsame]
      exact hrest a mid
    · rw [bind_of_error hrun, bind_of_error hsame]
      exact .inl rfl
  · rw [leave_eq] at hrun hrun'
    refine .inr ⟨code?, mid, ?_, ?_⟩
    · rw [bind_of_error hrun, leave_eq]
    · rw [bind_of_error hrun', leave_eq]

/-- If an action agrees on both hosts, and what is done about its failures, so does the mending; a
shell that leaves is caught by nobody. -/
theorem agrees_tryCatch {action action' : Act σ α} {handler handler' : Stop → Act σ α}
    (haction : Agrees H terminate action action')
    (hfailed : ∀ e, Agrees H terminate (handler (.failed e)) (handler' (.failed e)))
    (hended : ∀ ending, handler (.ended ending) = finish ending ∧
      handler' (.ended ending) = finish ending) :
    Agrees H terminate (tryCatch action handler) (tryCatch action' handler') := by
  intro sh
  rcases haction sh with hsame | ⟨code?, mid, hrun, hrun'⟩
  · rcases hrun : action sh with ⟨a, mid⟩ | ⟨e | ending, mid⟩ <;> rw [hrun] at hsame
    · rw [tryCatch_of_ok hrun, tryCatch_of_ok hsame]
      exact .inl rfl
    · rw [tryCatch_of_error hrun, tryCatch_of_error hsame]
      exact hfailed e mid
    · rw [tryCatch_of_error hrun, tryCatch_of_error hsame, (hended ending).1, (hended ending).2]
      exact .inl rfl
  · rw [leave_eq] at hrun hrun'
    refine .inr ⟨code?, mid, ?_, ?_⟩
    · rw [tryCatch_of_error hrun, (hended _).1, leave_eq]
      rfl
    · rw [tryCatch_of_error hrun', (hended _).2, leave_eq]
      rfl

/-! ## Lines and streams -/

variable (H terminate)

/-- A line that does not make the shell leave tells nobody to end. -/
theorem execute_withTerminate {line : Text} {sh : Shell σ}
    (hstays : ∀ command, reading line sh = .ok (some command) →
      Builtin.ofName? command.program ≠ some .exit) :
    execute (H.withTerminate terminate) line sh = execute H line sh := by
  rcases hparse : reading line sh with fault | _ | command
  · have hread : Command.parse line sh.pid (!sh.interpreter.foregroundOnly) = .error fault := hparse
    have hlook : (get : Act σ (Shell σ)) sh = .ok sh sh := rfl
    rw [execute, execute, bind_of_ok hlook, bind_of_ok hlook, hread]
  · have hread : Command.parse line sh.pid (!sh.interpreter.foregroundOnly) = .ok none := hparse
    have hlook : (get : Act σ (Shell σ)) sh = .ok sh sh := rfl
    rw [execute, execute, bind_of_ok hlook, bind_of_ok hlook, hread]
  · cases hname : Builtin.ofName? command.program with
    | none =>
        rw [execute_launch _ hparse hname, execute_launch _ hparse hname]
        rfl
    | some builtin =>
        cases builtin with
        | exit => exact absurd hname (hstays command hparse)
        | status =>
            rw [execute_status _ hparse hname, execute_status _ hparse hname]
            rfl
        | changeDirectory =>
            rw [execute_eq_run _ hparse, execute_eq_run _ hparse, run_changeDirectory _ hname,
              run_changeDirectory _ hname]
            rfl

/-- To execute a line on both hosts comes to the same, unless it leaves the shell. -/
theorem agrees_execute (line : Text) :
    Agrees H terminate (execute H line) (execute (H.withTerminate terminate) line) := by
  intro sh
  by_cases hleaves : ∃ command, reading line sh = .ok (some command) ∧
      Builtin.ofName? command.program = some .exit
  · obtain ⟨command, hparse, hname⟩ := hleaves
    exact .inr ⟨some 0, sh, execute_exit _ hparse hname, execute_exit _ hparse hname⟩
  · refine .inl (execute_withTerminate H terminate fun command hparse hname => ?_)
    exact hleaves ⟨command, hparse, hname⟩

variable {H terminate}

/-- If two actions agree, so do they with errors reported. -/
theorem agrees_reporting {action action' : Act σ Unit} (h : Agrees H terminate action action') :
    Agrees H terminate (reporting H action) (reporting (H.withTerminate terminate) action') :=
  agrees_tryCatch h (fun _ => agrees_refl H terminate _) fun _ => ⟨rfl, rfl⟩

/-- **To serve a stream** needs nobody to be told to end. -/
theorem agrees_serve (input : InputStream σ) (prompt : Option String)
    {perform perform' : Text → Act σ Unit}
    (hperform : ∀ line, Agrees H terminate (perform line) (perform' line)) (fuel : Nat)
    (reader : LineReader) :
    Agrees H terminate (serve H input prompt perform fuel reader)
      (serve (H.withTerminate terminate) input prompt perform' fuel reader) := by
  induction fuel generalizing reader with
  | zero => exact agrees_refl H terminate _
  | succ fuel ih =>
      rw [serve_succ, serve_succ]
      refine agrees_bind (agrees_refl H terminate (attempt H input prompt reader)) ?_
      rintro ⟨outcome, reader'⟩
      have hpoll : Agrees H terminate (pollSignals H) (pollSignals (H.withTerminate terminate)) :=
        agrees_refl H terminate _
      cases outcome with
      | failed errno => exact agrees_refl H terminate _
      | endOfInput => exact hpoll
      | interrupted =>
          refine agrees_bind hpoll fun _ sh => ?_
          change Agree H terminate
            ((if sh.interpreter.signalCaught && sh.config.interactive then _ else _ :
              Act σ Unit) sh)
            ((if sh.interpreter.signalCaught && sh.config.interactive then _ else _ :
              Act σ Unit) sh)
          split
          · exact agrees_bind (agrees_refl H terminate _) (fun _ => ih reader') sh
          · exact ih reader' sh
      | line text =>
          exact agrees_bind hpoll fun _ =>
            agrees_bind (agrees_reporting (hperform text)) fun _ => ih reader'

end Agreement

end Shell

namespace CommandLine

open Shell

variable {σ : Type} (H : Host σ) (terminate : ProcessId → σ → Option Errno × σ)

/-- What comes of telling a process to end, on the recorded host. -/
def answering : ProcessId → Recorded σ → Option Errno × Recorded σ :=
  (H.withTerminate terminate).recorded.terminate

theorem agrees_executeNoted (line : Text) :
    Agrees H.recorded (answering H terminate) (executeNoted H line)
      (executeNoted (H.withTerminate terminate) line) :=
  agrees_bind (agrees_refl _ _ (noteLine line)) fun _ =>
    agrees_execute H.recorded (answering H terminate) line

theorem agrees_streamNoted (input : InputStream (Recorded σ)) (prompt : Option String) :
    Agrees H.recorded (answering H terminate) (streamNoted H input prompt)
      (streamNoted (H.withTerminate terminate) input prompt) :=
  fun sh => agrees_serve input prompt (agrees_executeNoted H terminate) _ {} sh

theorem agrees_noted (source : CommandSource) :
    Agrees H.recorded (answering H terminate) (noted H source)
      (noted (H.withTerminate terminate) source) := by
  cases source with
  | line text => exact agrees_executeNoted H terminate text
  | standardInput => exact fun sh => agrees_streamNoted H terminate _ _ sh
  | version => exact agrees_refl _ _ _
  | missingLine => exact agrees_refl _ _ _
  | file path =>
      intro sh
      have hlook : (get : Act (Recorded σ) _) sh = .ok sh sh := rfl
      rw [noted, noted, bind_of_ok hlook, bind_of_ok hlook]
      have hopens : (H.withTerminate terminate).recorded.openLines path sh.world =
          H.recorded.openLines path sh.world := rfl
      rw [hopens]
      cases H.recorded.openLines path sh.world with
      | error reason => exact .inl rfl
      | ok opened => exact agrees_streamNoted H terminate opened.1 none _

/-- **A program ends in the same way** whatever comes of telling processes to end. -/
theorem agrees_conclude (source : CommandSource) :
    Agrees H.recorded (answering H terminate) (conclude H.recorded (noted H source))
      (conclude (H.withTerminate terminate).recorded
        (noted (H.withTerminate terminate) source)) := by
  refine agrees_tryCatch (agrees_bind (agrees_noted H terminate source) fun _ => ?_)
    (fun e => ?_) fun ending => ⟨rfl, rfl⟩
  · exact agrees_leave H.recorded (answering H terminate) none
  · exact agrees_bind (agrees_refl _ _ (report H.recorded e)) fun _ =>
      agrees_leave H.recorded (answering H terminate) (some failureCode)

end CommandLine

/-! ## Nobody is told to end before -/

/-- The process that is told to end. -/
def Event.dismissed? : Event → Option ProcessId
  | dismissed pid => some pid
  | _ => none

namespace Shell

variable {σ : Type} {H : Host σ} {sh mid sh' : Shell (Recorded σ)}

/-- Nobody was told to end meanwhile. -/
def NoDismissal (sh sh' : Shell (Recorded σ)) : Prop :=
  ∃ new, sh'.world.log = sh.world.log ++ new ∧ ∀ event ∈ new, event.dismissed? = none

theorem noDismissal_refl (sh : Shell (Recorded σ)) : NoDismissal sh sh :=
  ⟨[], (List.append_nil _).symm, fun _ hin => nomatch hin⟩

theorem NoDismissal.trans (h : NoDismissal sh mid) (h' : NoDismissal mid sh') :
    NoDismissal sh sh' := by
  obtain ⟨new, hlog, hnew⟩ := h
  obtain ⟨new', hlog', hnew'⟩ := h'
  refine ⟨new ++ new', by rw [hlog', hlog, List.append_assoc], fun event hin => ?_⟩
  rcases List.mem_append.mp hin with hin | hin
  · exact hnew event hin
  · exact hnew' event hin

/-- One more event, if it is another than that somebody was told to end, is not that somebody
was. -/
theorem noDismissal_note (sh : Shell (Recorded σ)) {event : Event} (h : event.dismissed? = none)
    (world : σ) : NoDismissal sh { sh with world := sh.world.note event world } :=
  ⟨[event], rfl, by simpa using h⟩

/-- The recorded host on which nothing comes of telling a process to end, and it is not noted. -/
def muted (H : Host σ) : Host (Recorded σ) :=
  H.recorded.withTerminate fun _ r => (none, r)

/-- Among quiet steps only one tells somebody to end, and on a muted host it is not noted. -/
theorem noDismissal_of_quietStep (h : QuietStep (muted H) sh sh') : NoDismissal sh sh' := by
  cases h with
  | signals signals => exact noDismissal_refl sh
  | memory interpreter hstatus => exact noDismissal_refl sh
  | print text hother => exact noDismissal_note sh rfl _
  | complain text => exact noDismissal_note sh rfl _
  | hear => exact noDismissal_note sh rfl _
  | dismiss pid => exact noDismissal_refl sh
  | dismissGroup => exact noDismissal_note sh rfl _
  | tell previous current => exact noDismissal_note sh rfl _
  | @move path world hmove =>
      have hnoted : (muted H).changeDirectory path sh.world =
          (H.changeDirectory path sh.world.world).map (sh.world.note (.moved path)) := rfl
      rw [hnoted] at hmove
      cases hplain : H.changeDirectory path sh.world.world with
      | error reason =>
          rw [hplain] at hmove
          exact nomatch hmove
      | ok moved =>
          rw [hplain] at hmove
          obtain rfl := Except.ok.inj hmove
          exact noDismissal_note sh rfl moved

/-- On a muted host quiet steps note that nobody was told to end. -/
theorem noDismissal_of_quiet (h : Quiet (muted H) sh sh') : NoDismissal sh sh' := by
  induction h with
  | refl => exact noDismissal_refl sh
  | tail _ hstep ih => exact ih.trans (noDismissal_of_quietStep hstep)

theorem noDismissal_of_forks {command : Command} {created : Option ProcessId}
    (h : Forks (muted H) command sh created sh') : NoDismissal sh sh' := by
  obtain ⟨launch, begun, -, hbefore, -, hafter⟩ := h
  have hforked : NoDismissal begun { begun with world := ((muted H).fork launch begun.world).2 } :=
    noDismissal_note begun rfl _
  exact ((noDismissal_of_quiet hbefore).trans hforked).trans (noDismissal_of_quiet hafter)

theorem noDismissal_of_waits {pid : ProcessId} {answers : List WaitAnswer}
    (h : Waits (muted H) pid sh answers sh') : NoDismissal sh sh' := by
  obtain ⟨begun, hbefore, -, hafter⟩ := h
  have hwaited : NoDismissal begun { begun with world := ((muted H).wait pid begun.world).2 } :=
    noDismissal_note begun rfl _
  exact ((noDismissal_of_quiet hbefore).trans hwaited).trans (noDismissal_of_quiet hafter)

theorem noDismissal_notified (sh : Shell (Recorded σ)) :
    NoDismissal sh (notified H.recorded sh) := by
  have hlog := log_notified H sh
  rw [List.append_assoc] at hlog
  refine ⟨_, hlog, fun event hin => ?_⟩
  rcases List.mem_append.mp hin with hin | hin
  · obtain ⟨asked, -, rfl⟩ := List.mem_map.mp hin
    rfl
  · obtain ⟨job, -, rfl⟩ := List.mem_map.mp hin
    rfl

theorem noDismissal_concluded (cause : Completion) (sh : Shell (Recorded σ)) :
    NoDismissal sh (concluded H.recorded cause sh) := by
  refine ⟨_, log_printAll H cause.noticeLines sh.world, fun event hin => ?_⟩
  obtain ⟨text, -, rfl⟩ := List.mem_map.mp hin
  rfl

theorem noDismissal_launched {command : Command}
    {result : EStateM.Result Stop (Shell (Recorded σ)) Unit}
    (h : Launched (muted H) command sh result) (hreached : reached? result = some sh') :
    NoDismissal sh sh' := by
  cases h with
  | refused hreason =>
      obtain rfl := Option.some.inj hreached
      exact noDismissal_refl sh
  | unborn hfork =>
      obtain rfl := Option.some.inj hreached
      exact noDismissal_of_forks hfork
  | @behind child forked jobs hbackground hfork hregister =>
      obtain rfl := Option.some.inj hreached
      have hannounced : NoDismissal forked { forked with
          jobs
          world := H.recorded.print (Job.begunText child ++ "\n") forked.world } :=
        noDismissal_note forked rfl _
      exact ((noDismissal_of_forks hfork).trans hannounced).trans (noDismissal_notified _)
  | @inFront child forked waited answers cause hfront hfit hfork hwait hcause =>
      obtain rfl := Option.some.inj hreached
      have hwaited := (noDismissal_of_forks hfork).trans (noDismissal_of_waits hwait)
      exact (hwaited.trans (noDismissal_concluded cause waited)).trans (noDismissal_notified _)
  | abandoned hfront hfork hwait herrno =>
      obtain rfl := Option.some.inj hreached
      exact (noDismissal_of_forks hfork).trans (noDismissal_of_waits hwait)
  | ended hstays => exact nomatch hreached

/-- **A line tells nobody to end** if the shell goes on after it. -/
theorem noDismissal_execute {line : Text}
    (hreached : reached? (execute H.recorded line sh) = some sh') : NoDismissal sh sh' := by
  have hstays : ∀ command, reading line sh = .ok (some command) →
      Builtin.ofName? command.program ≠ some .exit := by
    intro command hparse hname
    rw [execute_exit _ hparse hname, leave_eq] at hreached
    exact nomatch hreached
  have hgentle : execute (muted H) line sh = execute H.recorded line sh :=
    execute_withTerminate H.recorded _ hstays
  rw [← hgentle] at hreached
  have hexecuted := executed (muted H) line sh
  generalize execute (muted H) line sh = result at hreached hexecuted
  cases hexecuted with
  | quietly hplain hleft hquiet =>
      obtain rfl := Option.some.inj (hleft.symm.trans hreached)
      exact noDismissal_of_quiet hquiet
  | leaves hparse hname => exact nomatch hreached
  | launches hparse hname hlaunch => exact noDismissal_launched hlaunch hreached

/-- On a muted host, to hand on a line and execute it tells nobody to end. -/
theorem noDismissal_executeNoted {line : Text}
    (hreached : reached? (executeNoted H line sh) = some sh') : NoDismissal sh sh' := by
  have hhanded : NoDismissal sh (handedOn line sh) := noDismissal_note sh rfl _
  have hnote : noteLine line sh = .ok () (handedOn line sh) := rfl
  rw [executeNoted, bind_of_ok hnote] at hreached
  exact hhanded.trans (noDismissal_execute hreached)

/-- The turn of a line tells nobody to end on a muted host, also if an error is reported. -/
theorem noDismissal_line {line : Text}
    (hreached : reached? ((Turn.line line).act H sh) = some sh') :
    NoDismissal sh sh' := by
  have hhanded : NoDismissal sh (handedOn line sh) := noDismissal_note sh rfl _
  refine hhanded.trans ?_
  rw [act_line] at hreached
  rcases hrun : execute H.recorded line (handedOn line sh) with ⟨⟨⟩, mid⟩ | ⟨e | ending, mid⟩
  · rw [reporting_of_ok H.recorded hrun] at hreached
    obtain rfl := Option.some.inj hreached
    exact noDismissal_execute (by rw [hrun]; rfl)
  · have hmid : NoDismissal (handedOn line sh) mid := noDismissal_execute (by rw [hrun]; rfl)
    have hreport : NoDismissal mid (left (report H.recorded e mid)) := noDismissal_note mid rfl _
    rw [reporting_of_failed H.recorded hrun] at hreached
    cases hrecoverable : e.isRecoverable with
    | true =>
        rw [hrecoverable] at hreached
        obtain rfl := Option.some.inj hreached
        exact hmid.trans hreport
    | false =>
        rw [hrecoverable] at hreached
        obtain rfl := Option.some.inj hreached
        exact hmid
  · rw [reporting, tryCatch_of_error hrun] at hreached
    cases hreached

/-- **A turn tells nobody to end** if the shell goes on after it. -/
theorem noDismissal_turn {turn : Turn σ} (hreached : reached? (turn.act H sh) = some sh') :
    NoDismissal sh sh' := by
  have hquiet : (quiet (muted H)).Bounds (turn.act H) → NoDismissal sh sh' := fun hbounds =>
    noDismissal_of_quiet (quiet_of_reached hbounds hreached)
  cases turn with
  | line text => exact noDismissal_line hreached
  | signals => exact hquiet (quiet_takeSignals (muted H))
  | poll => exact hquiet (quiet_pollSignals (muted H))
  | reset => exact hquiet fun _ => .single (.memory _ rfl)
  | say text hother => exact hquiet (quiet_print (muted H) hother)
  | fault errno => exact hquiet ((quiet (muted H)).bounds_throw _)
  | stall => cases hreached
  | quit =>
      rw [Turn.act, leave_eq] at hreached
      cases hreached
  | notify =>
      rw [Turn.act, notify_eq] at hreached
      obtain rfl := Option.some.inj hreached
      exact noDismissal_notified sh
  | read input n =>
      obtain rfl := Option.some.inj hreached
      exact noDismissal_note sh rfl _
  | meanwhile change =>
      obtain rfl := Option.some.inj hreached
      exact noDismissal_refl sh

end Shell

end Conch
