import Conch.Proofs.Shell.Outcome
import Conch.Proofs.Shell.Steady

/-!
# Sessions of a shell

A session is a series of turns, in any order: a line is executed, signals are taken in, the jobs
that have ended are reported, something is printed or read, the world changes by itself, the shell
leaves.  A turn that stops short ends the session.  What a session does is noted in the log of the
recorded host.

To serve a stream of lines and then leave is to play a session (`exists_turns_of_serve`).  Of a turn
it matters what it adds to the log: most turns are `Uneventful`, which is true of all quiet steps
(`uneventful_of_quiet`); a notification notes what it asked and what it printed (`log_notified`);
and a line notes that it was handed on, and what was done with it.  There are only two ways for a
shell to leave (`of_act_eq_exited`).
-/

namespace Conch

/-- Something that happens in a session.

A line is executed, and an error that can be mended is reported; the signals that have arrived are
taken in, the mode changes with each stop signal that was handled, and it is forgotten that a signal
was caught.  The background jobs that have ended are reported, or something is printed that is not
about a job; a stream is read, or the world changes by itself.  Reading may fail, nothing may happen
any more, and the shell may leave. -/
inductive Turn (σ : Type) where
  | line (text : Text)
  | signals
  | poll
  | reset
  | notify
  | say (text : String) (hother : Job.cut? text = none)
  | read (input : InputStream σ) (n : Nat)
  | meanwhile (change : σ → σ)
  | fault (errno : Errno)
  | stall
  | quit

namespace Turn

variable {σ : Type}

open Shell in
/-- What a shell does in a turn. -/
def act (H : Host σ) : Turn σ → Act (Recorded σ) Unit
  | line text => reporting H.recorded (executeNoted H text)
  | signals => takeSignals H.recorded
  | poll => pollSignals H.recorded
  | reset => modify fun sh => { sh with
      interpreter := { sh.interpreter with signalCaught := false } }
  | notify => Shell.notify H.recorded
  | say text _ => print H.recorded text
  | read input n => affect (input.recorded.advance n)
  | meanwhile change => affect fun r => { r with world := change r.world }
  | fault errno => fail (.system errno)
  | stall => finish .stuck
  | quit => leave H.recorded none

/-- The turn may occur where a stream is served. -/
def Serves (input : InputStream σ) : Turn σ → Prop
  | read other _ => other = input
  | meanwhile _ => False
  | _ => True

end Turn

namespace Shell

variable {σ α β : Type} (H : Host σ)

/-- Play a session. -/
def play (turns : List (Turn σ)) : Act (Recorded σ) Unit :=
  turns.forM (Turn.act H)

theorem play_cons (turn : Turn σ) (turns : List (Turn σ)) :
    play H (turn :: turns) = turn.act H >>= fun _ => play H turns :=
  rfl

theorem play_append (turns more : List (Turn σ)) :
    play H (turns ++ more) = play H turns >>= fun _ => play H more := by
  induction turns with
  | nil => rfl
  | cons turn turns ih =>
      rw [List.cons_append, play_cons, play_cons, ih, bind_assoc]

/-- A session has reached a shell in its first turn, or in those that follow it. -/
theorem reached?_play_cons {turn : Turn σ} {turns : List (Turn σ)} {sh sh' : Shell (Recorded σ)}
    (h : reached? (play H (turn :: turns) sh) = some sh') :
    reached? (turn.act H sh) = some sh' ∨
    ∃ mid, reached? (turn.act H sh) = some mid ∧ reached? (play H turns mid) = some sh' := by
  rw [play_cons] at h
  rcases hrun : turn.act H sh with ⟨⟨⟩, mid⟩ | ⟨stop, mid⟩
  · rw [bind_of_ok hrun] at h
    exact .inr ⟨mid, rfl, h⟩
  · rw [bind_of_error hrun] at h
    exact .inl h

/-- A session has reached a shell before its last turn, or in it. -/
theorem reached?_play_snoc {turns : List (Turn σ)} {turn : Turn σ} {sh sh' : Shell (Recorded σ)}
    (h : reached? (play H (turns ++ [turn]) sh) = some sh') :
    reached? (play H turns sh) = some sh' ∨
    ∃ mid, reached? (play H turns sh) = some mid ∧ reached? (turn.act H mid) = some sh' := by
  rw [play_append] at h
  rcases hrun : play H turns sh with ⟨⟨⟩, mid⟩ | ⟨stop, mid⟩
  · rw [bind_of_ok hrun] at h
    rcases reached?_play_cons H h with hlast | ⟨last, hlast, hnothing⟩
    · exact .inr ⟨mid, rfl, hlast⟩
    · obtain rfl := Option.some.inj hnothing
      exact .inr ⟨mid, rfl, hlast⟩
  · rw [bind_of_error hrun] at h
    exact .inl h

/-! ## Serving a stream is a session -/

/-- What an action comes to, but for its value. -/
def withoutValue : EStateM.Result Stop (Shell (Recorded σ)) α →
    EStateM.Result Stop (Shell (Recorded σ)) Unit
  | .ok _ sh => .ok () sh
  | .error stop sh => .error stop sh

/-- The action is a session in which a stream is served. -/
def Plays (input : InputStream σ) (action : Act (Recorded σ) α) : Prop :=
  ∀ sh, ∃ turns : List (Turn σ), (∀ turn ∈ turns, turn.Serves input) ∧
    play H turns sh = withoutValue (action sh)

section Plays

variable {input : InputStream σ}

theorem plays_pure (a : α) : Plays H input (pure a) :=
  fun _ => ⟨[], by simp, rfl⟩

theorem plays_turn (turn : Turn σ) (hserves : turn.Serves input) :
    Plays H input (turn.act H) := by
  intro sh
  refine ⟨[turn], by simpa using hserves, ?_⟩
  rcases hrun : turn.act H sh with ⟨⟨⟩, sh'⟩ | ⟨stop, sh'⟩
  · rw [play_cons, bind_of_ok hrun]
    rfl
  · rw [play_cons, bind_of_error hrun]
    rfl

/-- Two sessions in which a stream is served, one after the other, are one. -/
theorem plays_bind {action : Act (Recorded σ) α} {rest : α → Act (Recorded σ) β}
    (haction : Plays H input action) (hrest : ∀ a, Plays H input (rest a)) :
    Plays H input (action >>= rest) := by
  intro sh
  obtain ⟨turns, hserves, hplay⟩ := haction sh
  rcases hrun : action sh with ⟨a, mid⟩ | ⟨stop, mid⟩
  · rw [hrun] at hplay
    obtain ⟨more, hmore, hthen⟩ := hrest a mid
    refine ⟨turns ++ more, ?_, ?_⟩
    · intro turn hin
      rcases List.mem_append.mp hin with hin | hin
      · exact hserves turn hin
      · exact hmore turn hin
    · have hfirst : play H turns sh = .ok () mid := hplay
      rw [play_append, bind_of_ok hfirst, bind_of_ok hrun]
      exact hthen
  · rw [hrun] at hplay
    exact ⟨turns, hserves, by rw [bind_of_error hrun]; exact hplay⟩

theorem plays_get {rest : Shell (Recorded σ) → Act (Recorded σ) β}
    (h : ∀ sh, Plays H input (rest sh)) : Plays H input (get >>= rest) :=
  fun sh => h sh sh

/-- To prepare for a line, by notifications and a prompt, is a session. -/
theorem plays_prepare {prompt : Option String} (hprompt : ∀ text ∈ prompt, Job.cut? text = none) :
    Plays H input (prepare H.recorded prompt) := by
  have htake : Plays H input (takeSignals H.recorded) := plays_turn H .signals trivial
  apply plays_bind H htake
  intro _
  apply plays_bind H (plays_turn H .poll trivial)
  intro _
  apply plays_bind H (plays_turn H .reset trivial)
  intro _
  apply plays_bind H (plays_turn H .notify trivial)
  intro _
  cases prompt with
  | none => exact htake
  | some text =>
      exact plays_bind H (plays_turn H (.say text (hprompt text rfl)) trivial) fun _ => htake

/-- To read a line of the stream is a session of one turn. -/
theorem plays_readLine (reader : LineReader) :
    Plays H input (readLine input.recorded reader) := by
  apply plays_get
  intro sh
  exact plays_bind H (plays_turn H (.read input _) rfl) fun _ => plays_pure H _

/-- **To serve a stream is to play a session**, in which no other stream is read and the world
changes only by what is done. -/
theorem plays_serve {prompt : Option String} (hprompt : ∀ text ∈ prompt, Job.cut? text = none)
    (fuel : Nat) (reader : LineReader) :
    Plays H input (serve H.recorded input.recorded prompt (executeNoted H) fuel reader) := by
  have htake : Plays H input (takeSignals H.recorded) := plays_turn H .signals trivial
  have hpoll : Plays H input (pollSignals H.recorded) := plays_turn H .poll trivial
  induction fuel generalizing reader with
  | zero => exact plays_turn H .stall trivial
  | succ fuel ih =>
      rw [serve_succ]
      have hattempt : Plays H input (attempt H.recorded input.recorded prompt reader) := by
        apply plays_bind H (plays_prepare H hprompt)
        intro _
        apply plays_bind H (plays_readLine H reader)
        intro read
        exact plays_bind H htake fun _ => plays_pure H read
      apply plays_bind H hattempt
      rintro ⟨outcome, reader'⟩
      cases outcome with
      | failed errno => exact plays_turn H (.fault errno) trivial
      | endOfInput => exact hpoll
      | interrupted =>
          apply plays_bind H hpoll
          intro _
          apply plays_get
          intro sh
          have hnewline : Job.cut? "\n" = none := Job.cut?_eq_none (by decide)
          split
          · exact plays_bind H (plays_turn H (.say "\n" hnewline) trivial) fun _ => ih reader'
          · exact ih reader'
      | line text =>
          apply plays_bind H hpoll
          intro _
          exact plays_bind H (plays_turn H (.line text) trivial) fun _ => ih reader'

/-- The prompt, if there is one, is not about a job. -/
theorem cut?_promptText (prompted : Bool) :
    ∀ text ∈ (if prompted then some promptText else none : Option String),
      Job.cut? text = none := by
  intro text htext
  cases prompted with
  | false => exact nomatch htext
  | true =>
      obtain rfl := Option.some.inj htext
      exact Job.cut?_eq_none (by decide)

/-- A shell that serves a stream to its end and leaves plays a session. -/
theorem exists_turns_of_serve (input : InputStream σ) {prompt : Option String}
    (hprompt : ∀ text ∈ prompt, Job.cut? text = none) (fuel : Nat) (reader : LineReader)
    (sh : Shell (Recorded σ)) :
    ∃ turns : List (Turn σ), (∀ turn ∈ turns, turn.Serves input) ∧ play H turns sh =
      (do serve H.recorded input.recorded prompt (executeNoted H) fuel reader
          leave H.recorded none) sh := by
  have hplays : Plays H input (do
      serve H.recorded input.recorded prompt (executeNoted H) fuel reader
      leave H.recorded none : Act (Recorded σ) Unit) :=
    plays_bind H (plays_serve H hprompt fuel reader) fun _ => plays_turn H .quit trivial
  obtain ⟨turns, hserves, hplay⟩ := hplays sh
  refine ⟨turns, hserves, hplay.trans ?_⟩
  cases (do serve H.recorded input.recorded prompt (executeNoted H) fuel reader
            leave H.recorded none : Act (Recorded σ) Unit) sh <;> rfl

end Plays

end Shell

/-! ## Events -/

/-- The event is about neither children nor jobs nor lines. -/
def Event.Minor : Event → Prop
  | printed text => Job.cut? text = none
  | created .. | waited .. | asked .. | handed .. => False
  | _ => True

theorem Event.handed?_of_minor {event : Event} (h : event.Minor) : event.handed? = none := by
  cases event with
  | handed line heeded stops => exact absurd h id
  | _ => rfl

namespace Shell

variable {σ : Type}

/-- Nothing but minor events has happened. -/
structure Uneventful (sh sh' : Shell (Recorded σ)) : Prop where
  log : ∃ new, sh'.world.log = sh.world.log ++ new ∧ ∀ event ∈ new, event.Minor
  pid : sh'.pid = sh.pid
  jobs : sh'.jobs = sh.jobs
  status : sh'.interpreter.status = sh.interpreter.status

/-- What may happen without any other events. -/
def uneventful : Frame (Recorded σ) where
  Allows := Uneventful
  refl _ := ⟨⟨[], by simp⟩, rfl, rfl, rfl⟩
  trans h h' := by
    obtain ⟨new, hlog, hnew⟩ := h.log
    obtain ⟨new', hlog', hnew'⟩ := h'.log
    refine ⟨⟨new ++ new', by rw [hlog', hlog, List.append_assoc], fun event hin => ?_⟩,
      h'.pid.trans h.pid, h'.jobs.trans h.jobs, h'.status.trans h.status⟩
    rcases List.mem_append.mp hin with hin | hin
    · exact hnew event hin
    · exact hnew' event hin

theorem uneventful_note (sh : Shell (Recorded σ)) (event : Event) (h : event.Minor) (world : σ) :
    Uneventful sh { sh with world := sh.world.note event world } :=
  ⟨⟨[event], rfl, by simpa using h⟩, rfl, rfl, rfl⟩

variable {H : Host σ}

/-- A quiet step notes minor events at most, and leaves the process id, the jobs and the status
alone. -/
theorem uneventful_of_quietStep {sh sh' : Shell (Recorded σ)} (h : QuietStep H.recorded sh sh') :
    Uneventful sh sh' := by
  cases h with
  | signals signals => exact ⟨⟨[], by simp⟩, rfl, rfl, rfl⟩
  | memory interpreter hstatus => exact ⟨⟨[], by simp⟩, rfl, rfl, hstatus⟩
  | print text hother => exact uneventful_note sh (.printed text) hother _
  | complain text => exact uneventful_note sh (.complained text) trivial _
  | hear => exact uneventful_note sh (.heard _) trivial _
  | dismiss pid => exact uneventful_note sh (.dismissed pid) trivial _
  | dismissGroup => exact uneventful_note sh .dismissedGroup trivial _
  | tell previous current => exact uneventful_note sh (.exported previous current) trivial _
  | @move path world hmove =>
      have hnoted : H.recorded.changeDirectory path sh.world =
          (H.changeDirectory path sh.world.world).map (sh.world.note (.moved path)) := rfl
      rw [hnoted] at hmove
      cases hplain : H.changeDirectory path sh.world.world with
      | error reason =>
          rw [hplain] at hmove
          exact nomatch hmove
      | ok moved =>
          rw [hplain] at hmove
          obtain rfl := Except.ok.inj hmove
          exact uneventful_note sh (.moved path) trivial moved

/-- **Quiet steps leave no other events** than minor ones, however many of them there are. -/
theorem uneventful_of_quiet {sh sh' : Shell (Recorded σ)} (h : Quiet H.recorded sh sh') :
    Uneventful sh sh' := by
  induction h with
  | refl => exact uneventful.refl sh
  | tail _ hstep ih => exact uneventful.trans ih (uneventful_of_quietStep hstep)

/-- What is noted of the creation of a process is that it was asked for, once, with minor events
before and after. -/
theorem log_of_forks {command : Command} {created : Option ProcessId}
    {sh sh' : Shell (Recorded σ)} (h : Forks H.recorded command sh created sh') :
    ∃ early launch late, launch.command = command ∧
      sh'.world.log = sh.world.log ++ (early ++ .created launch created :: late) ∧
      (∀ event ∈ early, event.Minor) ∧ (∀ event ∈ late, event.Minor) ∧ sh'.jobs = sh.jobs ∧
      sh'.pid = sh.pid ∧ sh'.interpreter.status = sh.interpreter.status := by
  obtain ⟨launch, begun, hcommand, hbefore, rfl, hafter⟩ := h
  have hfirst := uneventful_of_quiet hbefore
  have hlast := uneventful_of_quiet hafter
  obtain ⟨early, hearly, hminor⟩ := hfirst.log
  obtain ⟨late, hlate, hminor'⟩ := hlast.log
  have hforked : (H.recorded.fork launch begun.world).2.log =
      begun.world.log ++ [.created launch (H.recorded.fork launch begun.world).1] := rfl
  refine ⟨early, launch, late, hcommand, ?_, hminor, hminor', hlast.jobs.trans hfirst.jobs,
    hlast.pid.trans hfirst.pid, hlast.status.trans hfirst.status⟩
  rw [hlate, hforked, hearly]
  simp only [List.append_assoc, List.singleton_append]

/-- The creation of a process does not touch the table of jobs. -/
theorem jobs_of_forks {command : Command} {created : Option ProcessId}
    {sh sh' : Shell (Recorded σ)} (h : Forks H.recorded command sh created sh') :
    sh'.jobs = sh.jobs := by
  obtain ⟨launch, begun, -, hbefore, -, hafter⟩ := h
  have hfirst := (uneventful_of_quiet hbefore).jobs
  exact (uneventful_of_quiet hafter).jobs.trans hfirst

/-- What is noted of waiting for a child is the answers to it, once, with minor events before and
after. -/
theorem log_of_waits {pid : ProcessId} {answers : List WaitAnswer} {sh sh' : Shell (Recorded σ)}
    (h : Waits H.recorded pid sh answers sh') :
    ∃ early late, sh'.world.log = sh.world.log ++ (early ++ .waited pid answers :: late) ∧
      (∀ event ∈ early, event.Minor) ∧ (∀ event ∈ late, event.Minor) ∧ sh'.jobs = sh.jobs ∧
      sh'.pid = sh.pid := by
  obtain ⟨begun, hbefore, rfl, hafter⟩ := h
  have hfirst := uneventful_of_quiet hbefore
  have hlast := uneventful_of_quiet hafter
  obtain ⟨early, hearly, hminor⟩ := hfirst.log
  obtain ⟨late, hlate, hminor'⟩ := hlast.log
  have hwaited : (H.recorded.wait pid begun.world).2.log =
      begun.world.log ++ [.waited pid (H.recorded.wait pid begun.world).1] := rfl
  refine ⟨early, late, ?_, hminor, hminor', hlast.jobs.trans hfirst.jobs,
    hlast.pid.trans hfirst.pid⟩
  rw [hlate, hwaited, hearly]
  simp only [List.append_assoc, List.singleton_append]

variable (H)

theorem log_printAll (lines : List String) (r : Recorded σ) :
    (printAll H.recorded lines r).log = r.log ++ lines.map .printed := by
  induction lines generalizing r with
  | nil => simp [printAll]
  | cons line lines ih =>
      have hrest := ih (H.recorded.print line r)
      have hfirst : (H.recorded.print line r).log = r.log ++ [.printed line] := rfl
      rw [hfirst, List.append_assoc] at hrest
      exact hrest

/-- A sweep notes what it asked and what it was told, job by job. -/
theorem log_sweepJobs (jobs : List Job) (r : Recorded σ) :
    (JobTable.sweepJobs H.recorded.poll jobs r).world.log = r.log ++
      (JobTable.consult H.recorded.poll jobs r).map fun asked => .asked asked.1.pid asked.2 := by
  induction jobs generalizing r with
  | nil => simp [JobTable.sweepJobs, JobTable.consult]
  | cons job jobs ih =>
      have hfirst : (H.recorded.poll job.pid r).2.log =
          r.log ++ [.asked job.pid (H.recorded.poll job.pid r).1] := rfl
      rw [JobTable.world_sweepJobs_cons, ih, hfirst, JobTable.consult, List.map_cons,
        List.append_assoc]
      rfl

/-- A notification notes a sweep and the lines that it prints. -/
theorem log_notified (sh : Shell (Recorded σ)) :
    (notified H.recorded sh).world.log = sh.world.log ++
      ((JobTable.consult H.recorded.poll sh.jobs.jobs sh.world).map
        fun asked => .asked asked.1.pid asked.2) ++
      (JobTable.sweepJobs H.recorded.poll sh.jobs.jobs sh.world).completed.map
        fun job => .printed (job.text ++ "\n") := by
  have hprinted := log_printAll H
    ((JobTable.sweepJobs H.recorded.poll sh.jobs.jobs sh.world).completed.map
      fun job => job.text ++ "\n")
    (JobTable.sweepJobs H.recorded.poll sh.jobs.jobs sh.world).world
  rw [log_sweepJobs, List.map_map] at hprinted
  exact hprinted

/-! ## Lines -/

/-- The shell once it has been noted that a line is handed on. -/
def handedOn (line : Text) (sh : Shell (Recorded σ)) : Shell (Recorded σ) :=
  { sh with
    world := sh.world.note
      (.handed line (!sh.interpreter.foregroundOnly) sh.signals.stops) sh.world.world }

variable {H} {line : Text} {sh sh' : Shell (Recorded σ)}

/-- A line is reported on after it was handed on and executed. -/
theorem act_line : (Turn.line line).act H sh =
    reporting H.recorded (execute H.recorded line) (handedOn line sh) := by
  have hnote : noteLine line sh = .ok () (handedOn line sh) := rfl
  exact reporting_bind_of_ok H.recorded hnote

/-- After the turn of a line that has come to its end, the line has been executed, or an error that
could be mended was reported. -/
theorem of_act_line_eq_ok (h : (Turn.line line).act H sh = .ok () sh') :
    execute H.recorded line (handedOn line sh) = .ok () sh' ∨
    ∃ e mid, execute H.recorded line (handedOn line sh) = .error (.failed e) mid ∧
      e.isRecoverable = true ∧ Quiet H.recorded mid sh' := by
  rw [act_line] at h
  rcases hrun : execute H.recorded line (handedOn line sh) with ⟨⟨⟩, mid⟩ | ⟨e | ending, mid⟩
  · rw [reporting_of_ok H.recorded hrun] at h
    exact .inl h
  · rw [reporting_of_failed H.recorded hrun] at h
    cases hrecoverable : e.isRecoverable with
    | false =>
        rw [hrecoverable] at h
        cases h
    | true =>
        rw [hrecoverable, if_pos rfl] at h
        exact .inr ⟨e, mid, rfl, hrecoverable, quiet_of_ok (quiet_report H.recorded e) h⟩
  · rw [reporting, tryCatch_of_error hrun] at h
    cases h

/-- What ends the turn of a line has ended its execution, since a report fails for nothing. -/
theorem of_act_line_eq_error {stop : Stop} (h : (Turn.line line).act H sh = .error stop sh') :
    execute H.recorded line (handedOn line sh) = .error stop sh' := by
  rw [act_line] at h
  rcases hrun : execute H.recorded line (handedOn line sh) with ⟨⟨⟩, mid⟩ | ⟨e | ending, mid⟩
  · rw [reporting_of_ok H.recorded hrun] at h
    exact nomatch h
  · rw [reporting_of_failed H.recorded hrun] at h
    cases hrecoverable : e.isRecoverable with
    | false =>
        rw [hrecoverable] at h
        exact h
    | true =>
        rw [hrecoverable] at h
        exact nomatch h
  · rw [reporting, tryCatch_of_error hrun] at h
    exact h

/-! ## How a session ends -/

/-- **A shell leaves** in two ways only: of its own accord, or because a line tells it to. -/
theorem of_act_eq_exited {turn : Turn σ} {code : Int}
    (h : turn.act H sh = .error (.ended (.exited code)) sh') :
    (leave H.recorded none : Act (Recorded σ) Unit) sh = .error (.ended (.exited code)) sh' ∨
    ∃ line command, reading line (handedOn line sh) = .ok (some command) ∧
      Builtin.ofName? command.program = some .exit ∧
      (leave H.recorded (some 0) : Act (Recorded σ) Unit) (handedOn line sh) =
        .error (.ended (.exited code)) sh' := by
  cases turn with
  | line text =>
      have hrun := of_act_line_eq_error h
      have hexecuted := executed H.recorded text (handedOn text sh)
      rw [hrun] at hexecuted
      cases hexecuted with
      | quietly hplain hleft hquiet => exact nomatch hleft
      | launches hparse hname hlaunch =>
          cases hlaunch with
          | ended hstays => exact absurd rfl (hstays code)
      | @leaves command _ hparse hname =>
          rw [execute_exit H.recorded hparse hname] at hrun
          exact .inr ⟨text, command, hparse, hname, hrun⟩
  | signals =>
      obtain ⟨number, hkilled⟩ := onlyKills_takeSignals H.recorded _ _ _ h
      exact nomatch hkilled
  | poll =>
      obtain ⟨polled, hpoll, -⟩ := pollSignals_ok H.recorded sh
      exact nomatch hpoll.symm.trans h
  | notify => exact nomatch (notify_eq H.recorded sh).symm.trans h
  | reset => exact nomatch h
  | say text hother => exact nomatch h
  | read input n => exact nomatch h
  | meanwhile change => exact nomatch h
  | fault errno => exact nomatch h
  | stall => exact nomatch h
  | quit => exact .inl h

/-- A shell that leaves does so by quiet steps, the last of which tell the jobs to end. -/
theorem quiet_of_leave {code? : Option Int} {stop : Stop}
    (h : (leave H.recorded code? : Act (Recorded σ) Unit) sh = .error stop sh') :
    Quiet H.recorded sh sh' := by
  have hbounds := quiet_leave (α := Unit) H.recorded code? sh
  rw [h] at hbounds
  exact hbounds

end Shell

end Conch
