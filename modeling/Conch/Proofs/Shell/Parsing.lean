import Conch.Proofs.Shell.Composition
import Conch.Proofs.Shell.Status

/-!
# What becomes of the lines that are handed on

The log of a session says of each line whether background markers were heeded when it was handed
on.  This is noted before the line is read, so by itself it says nothing about how the line is read.
What ties the two together is shown here: a line that was handed on is read by `Command.parse` with
this very flag, and what the shell then does is what it has been read as (`runParsed`).

This is said twice.  Once of the run: it comes to a shell that hands the line on, and the rest of it
is to run what the line has been read as, and then the turns that follow (`GoesOnWith`).  And once
of the log, where `runParsed` does not occur: between a line and the next one a process is asked for
only if the line has been read as the command that it is to become, and if there is something wrong
with the line, the complaint about that is the first thing that is noted (`HandedLine.Parsed`).

* `notes_execute`: what may be noted while a line is executed, however that ends;
* `exists_turn_of_handed`: each line in the log of a session was handed on in a turn of its own;
* `parsed_turn`, `parsed_play`: what a turn preserves, and a session.
-/

namespace Conch

/-- What may be noted while a line is executed that has been read as this command, or as none: no
other line is handed on, and a process is asked for only if it is to become the command. -/
def Event.Within (command? : Option Command) : Event → Prop
  | handed .. => False
  | created launch _ => command? = some launch.command
  | _ => True

/-- While a line is executed no other line is handed on. -/
theorem Event.handed?_of_within {command? : Option Command} {event : Event}
    (h : event.Within command?) : event.handed? = none := by
  cases event with
  | handed line heeded stops => exact absurd h id
  | _ => rfl

/-- What is neither about children nor about lines may be noted at any time. -/
theorem Event.within_of_minor (command? : Option Command) {event : Event} (h : event.Minor) :
    event.Within command? := by
  cases event with
  | handed line heeded stops => exact h
  | created launch pid => exact absurd h id
  | _ => trivial

/-- A line that was handed on is read with background markers heeded as the log says, by a shell
with this process id.  A process is asked for only if the line has been read as the command that it
is to become.  If something is wrong with the line, the shell complains about that before it does
anything else. -/
structure HandedLine.Parsed (pid : UInt32) (entry : HandedLine) : Prop where
  created : ∀ launch child, .created launch child ∈ entry.events →
    Command.parse entry.line pid entry.heeded = .ok (some launch.command)
  refused : ∀ fault, Command.parse entry.line pid entry.heeded = .error fault →
    entry.events.head? =
      some (.complained s!"{Shell.reportName}: {(ShellError.malformed fault).message}\n")

/-- A line has been read as a command if and only if this is what the parser says. -/
theorem HandedLine.command?_eq_some_iff {pid : UInt32} {entry : HandedLine} {command : Command} :
    entry.command? pid = some command ↔
      Command.parse entry.line pid entry.heeded = .ok (some command) := by
  rw [command?]
  cases Command.parse entry.line pid entry.heeded <;> simp

namespace Shell

variable {σ α : Type}

/-- What a shell does with a line that has been read: it complains about a fault, does nothing for a
blank line or a comment, and runs a command. -/
def runParsed (H : Host σ) : Except SyntaxFault (Option Command) → Act σ Unit
  | .error fault => fail (.malformed fault)
  | .ok none => pure ()
  | .ok (some command) => run H command

/-- To execute a line is to read it with background markers heeded or not, as the mode of the shell
is at that moment, and to run what it has been read as. -/
theorem execute_eq_runParsed (H : Host σ) (line : Text) (sh : Shell σ) :
    execute H line sh =
      runParsed H (Command.parse line sh.pid (!sh.interpreter.foregroundOnly)) sh := by
  have hlook : (get : Act σ (Shell σ)) sh = .ok sh sh := rfl
  rw [execute, bind_of_ok hlook]
  rcases Command.parse line sh.pid (!sh.interpreter.foregroundOnly) with fault | _ | command <;> rfl

/-- Two actions that come to the same from where they start are reported on alike. -/
theorem reporting_congr {H : Host σ} {action action' : Act σ Unit} {sh : Shell σ}
    (h : action sh = action' sh) : reporting H action sh = reporting H action' sh := by
  rw [reporting, reporting, tryCatch_eq, tryCatch_eq, h]

/-! ## What is noted -/

/-- All that was noted meanwhile is of this kind, and the shell has kept its process id. -/
structure Notes (kind : Event → Prop) (sh sh' : Shell (Recorded σ)) : Prop where
  log : ∃ new, sh'.world.log = sh.world.log ++ new ∧ ∀ event ∈ new, kind event
  pid : sh'.pid = sh.pid

/-- To note nothing but events of a kind. -/
def noting (kind : Event → Prop) : Frame (Recorded σ) where
  Allows := Notes kind
  refl _ := ⟨⟨[], by simp⟩, rfl⟩
  trans h h' := by
    obtain ⟨new, hlog, hnew⟩ := h.log
    obtain ⟨new', hlog', hnew'⟩ := h'.log
    refine ⟨⟨new ++ new', by rw [hlog', hlog, List.append_assoc], fun event hin => ?_⟩,
      h'.pid.trans h.pid⟩
    rcases List.mem_append.mp hin with hin | hin
    · exact hnew event hin
    · exact hnew' event hin

section Kinds

variable {kind : Event → Prop} {sh sh' : Shell (Recorded σ)}

/-- To note an event of the kind notes nothing else. -/
theorem notes_note (event : Event) (h : kind event) (sh : Shell (Recorded σ)) (world : σ) :
    Notes kind sh { sh with world := sh.world.note event world } :=
  ⟨⟨[event], rfl, by simpa using h⟩, rfl⟩

theorem notes_of_same (hworld : sh'.world = sh.world) (hpid : sh'.pid = sh.pid) :
    Notes kind sh sh' :=
  ⟨⟨[], by simp [hworld]⟩, hpid⟩

end Kinds

variable {H : Host σ} {command? : Option Command} {sh sh' : Shell (Recorded σ)}

/-- A quiet action may be done at any time, since all that it notes is minor. -/
theorem within_of_quiet {action : Act (Recorded σ) α} (h : (quiet H.recorded).Bounds action) :
    (noting (Event.Within command?)).Bounds action := by
  intro sh
  have huneventful := uneventful_of_quiet (h sh)
  obtain ⟨new, hlog, hnew⟩ := huneventful.log
  exact ⟨⟨new, hlog, fun event hin => Event.within_of_minor command? (hnew event hin)⟩,
    huneventful.pid⟩

/-- A notification asks about jobs and prints, which may be done at any time. -/
theorem within_notify : (noting (Event.Within command?)).Bounds (notify H.recorded) := by
  intro sh
  rw [notify_eq]
  have hlog := log_notified H sh
  rw [List.append_assoc] at hlog
  refine ⟨⟨_, hlog, fun event hin => ?_⟩, rfl⟩
  simp only [List.mem_append, List.mem_map] at hin
  rcases hin with ⟨asked, -, rfl⟩ | ⟨job, -, rfl⟩ <;> trivial

/-- An action under a guard notes what it would note without it, and the signals that come in. -/
theorem within_guarded {action : Act (Recorded σ) α}
    (h : (noting (Event.Within command?)).Bounds action) :
    (noting (Event.Within command?)).Bounds (guarded H.recorded action) := by
  let property : Compositional (Recorded σ) := (noting (Event.Within command?)).bounding
  have hblock : property.Has (modify fun sh : Shell (Recorded σ) =>
      { sh with signals := sh.signals.block }) := fun sh => notes_of_same rfl rfl
  have htake : property.Has (takeSignals H.recorded) :=
    within_of_quiet (quiet_takeSignals H.recorded)
  have hadjust : ∀ f, property.Has (adjust H.recorded f) :=
    fun f => within_of_quiet (quiet_adjust H.recorded f)
  exact Compositional.has_guarded hblock htake hadjust h

/-- What a shell does about its user and its own memory may be done at any time. -/
theorem attends_within :
    (noting (Event.Within command?) : Frame (Recorded σ)).bounding.Attends H.recorded where
  print text sh := notes_note (.printed text) trivial sh _
  notify := within_notify
  enter _ _ := notes_of_same rfl rfl
  remember _ _ := notes_of_same rfl rfl

/-- The creation of a process for a command notes that a process was asked for that is to become
it. -/
theorem within_create (command : Command) :
    (noting (Event.Within (some command))).Bounds (create H.recorded command) := by
  let frame : Frame (Recorded σ) := noting (Event.Within (some command))
  have htake : frame.Bounds (takeSignals H.recorded) :=
    within_of_quiet (quiet_takeSignals H.recorded)
  have hinstall : ∀ set, frame.Bounds
      (modify fun sh => { sh with signals := sh.signals.install set }) :=
    fun set sh => notes_of_same rfl rfl
  apply within_guarded
  refine frame.bounds_bind (hinstall _) fun _ => frame.bounds_bind htake fun _ => ?_
  refine frame.bounds_bind frame.bounds_get fun ready => ?_
  let launch : Launch := { command, signals := ready.signals }
  have hfork : frame.Bounds (request (H.recorded.fork launch)) := by
    intro sh
    have hwithin : (Event.created launch (H.fork launch sh.world.world).1).Within (some command) :=
      rfl
    exact notes_note _ hwithin sh _
  refine frame.bounds_bind hfork fun pid => frame.bounds_bind htake fun _ => ?_
  exact frame.bounds_bind (hinstall _) fun _ => frame.bounds_pure pid

/-- A launch asks for one process, which is to become the command, and for no other. -/
theorem within_launch (command : Command) :
    (noting (Event.Within (some command))).Bounds (launch H.recorded command) := by
  refine Compositional.has_launch attends_within (within_create command) fun pid => ?_
  exact within_guarded fun sh => notes_note (.waited pid _) trivial sh _

/-- **What is noted while a line is executed**, however that ends, is within the command that the
line has been read as. -/
theorem notes_execute (line : Text) (sh : Shell (Recorded σ)) :
    Notes (Event.Within ((handedLineOf line sh).command? sh.pid)) sh
      (left (execute H.recorded line sh)) := by
  have hrun : execute H.recorded line sh = runParsed H.recorded (reading line sh) sh :=
    execute_eq_runParsed H.recorded line sh
  rcases hparse : reading line sh with fault | _ | command
  · rw [hrun, hparse]
    exact notes_of_same rfl rfl
  · rw [hrun, hparse]
    exact notes_of_same rfl rfl
  · rw [command?_handedLineOf.mpr hparse]
    cases hname : Builtin.ofName? command.program with
    | none =>
        rw [execute_launch H.recorded hparse hname]
        exact within_launch command sh
    | some builtin =>
        -- What the shell does by itself is quiet.
        have hquiet : Quiet H.recorded sh (left (execute H.recorded line sh)) := by
          cases builtin with
          | changeDirectory =>
              obtain ⟨sh', hreached, hquiet⟩ := execute_changeDirectory H.recorded hparse hname
              rwa [left_of_reached? hreached]
          | exit =>
              rw [execute_exit H.recorded hparse hname]
              exact quiet_leave H.recorded (some 0) sh
          | status =>
              have hother : Job.cut? (sh.interpreter.status.text ++ "\n") = none :=
                Completion.cut?_text _
              rw [execute_status H.recorded hparse hname]
              exact (QuietStep.print _ hother).quiet
        have huneventful := uneventful_of_quiet hquiet
        obtain ⟨new, hlog, hnew⟩ := huneventful.log
        exact ⟨⟨new, hlog, fun event hin => Event.within_of_minor _ (hnew event hin)⟩,
          huneventful.pid⟩

/-! ## Turns -/

/-- What is noted in the turn of a line after the line was handed on is within the command that it
has been read as; a report on an error comes last, if there is one. -/
theorem notes_line (line : Text) (sh : Shell (Recorded σ)) :
    Notes (Event.Within ((handedLineOf line sh).command? sh.pid)) (handedOn line sh)
      (left ((Turn.line line).act H sh)) := by
  have hexecute := notes_execute (H := H) line (handedOn line sh)
  rw [act_line]
  rcases hrun : execute H.recorded line (handedOn line sh) with ⟨⟨⟩, mid⟩ | ⟨e | ending, mid⟩
  · rw [hrun] at hexecute
    rwa [reporting_of_ok H.recorded hrun]
  · rw [hrun] at hexecute
    rw [reporting_of_failed H.recorded hrun]
    split
    · exact (noting _).trans hexecute (within_of_quiet (quiet_report H.recorded e) mid)
    · exact hexecute
  · rw [hrun] at hexecute
    rwa [reporting, tryCatch_of_error hrun]

/-- In a turn of another kind no line is handed on and no process is asked for. -/
theorem notes_turn (turn : Turn σ) (hother : ∀ text, turn ≠ .line text)
    (sh : Shell (Recorded σ)) : Notes (Event.Within none) sh (left (turn.act H sh)) := by
  cases turn with
  | line text => exact absurd rfl (hother text)
  | signals => exact within_of_quiet (quiet_takeSignals H.recorded) sh
  | poll => exact within_of_quiet (quiet_pollSignals H.recorded) sh
  | reset => exact notes_of_same rfl rfl
  | notify => exact within_notify sh
  | say text hplain => exact within_of_quiet (quiet_print H.recorded hplain) sh
  | read input n => exact notes_note (.read _) trivial sh _
  | meanwhile change => exact ⟨⟨[], (List.append_nil _).symm, fun _ hin => nomatch hin⟩, rfl⟩
  | fault errno => exact (noting _).refl sh
  | stall => exact (noting _).refl sh
  | quit => exact within_of_quiet (quiet_leave H.recorded none) sh

/-- What a turn hands on. -/
def handing (sh : Shell (Recorded σ)) : Turn σ → List Event
  | .line text => [.handed text (!sh.interpreter.foregroundOnly) sh.signals.stops]
  | _ => []

theorem handing_eq_nil {turn : Turn σ} (hother : ∀ text, turn ≠ .line text)
    (sh : Shell (Recorded σ)) : handing sh turn = [] := by
  cases turn with
  | line text => exact absurd rfl (hother text)
  | _ => rfl

/-- The log after a turn: the line is noted first, if the turn hands one on, and nothing that comes
after it hands on another. -/
theorem log_turn (turn : Turn σ) (sh : Shell (Recorded σ)) :
    (left (turn.act H sh)).pid = sh.pid ∧
      ∃ new, (left (turn.act H sh)).world.log = sh.world.log ++ (handing sh turn ++ new) ∧
        ∀ event ∈ new, event.handed? = none := by
  by_cases hline : ∃ text, turn = .line text
  · obtain ⟨text, rfl⟩ := hline
    have hnotes := notes_line (H := H) text sh
    obtain ⟨new, hlog, hnew⟩ := hnotes.log
    refine ⟨hnotes.pid, new, ?_, fun event hin => Event.handed?_of_within (hnew event hin)⟩
    rw [hlog, ← List.append_assoc]
    rfl
  · have hother : ∀ text, turn ≠ .line text := fun text h => hline ⟨text, h⟩
    have hnotes := notes_turn (H := H) turn hother sh
    obtain ⟨new, hlog, hnew⟩ := hnotes.log
    refine ⟨hnotes.pid, new, ?_, fun event hin => Event.handed?_of_within (hnew event hin)⟩
    rw [hlog, handing_eq_nil hother, List.nil_append]

/-- A session adds to the log and keeps the process id. -/
theorem notes_play (turns : List (Turn σ)) :
    (noting fun _ => True).Bounds (play H turns) := by
  refine Frame.bounds_forM _ fun turn _ sh => ?_
  obtain ⟨hpid, new, hlog, -⟩ := log_turn (H := H) turn sh
  exact ⟨⟨_, hlog, fun _ _ => trivial⟩, hpid⟩

/-- The log of a session is that of its first turn and, if the session goes on after this one, that
of the other turns. -/
theorem log_play_cons (turn : Turn σ) (turns : List (Turn σ)) (sh : Shell (Recorded σ)) :
    ∃ rest, (left (play H (turn :: turns) sh)).world.log =
        (left (turn.act H sh)).world.log ++ rest ∧
      (rest ≠ [] → ∃ mid, turn.act H sh = .ok () mid ∧
        (left (play H turns mid)).world.log = mid.world.log ++ rest) := by
  rcases hrun : turn.act H sh with ⟨⟨⟩, mid⟩ | ⟨stop, mid⟩
  · obtain ⟨rest, hmore, -⟩ := (notes_play (H := H) turns mid).log
    refine ⟨rest, ?_, fun _ => ⟨mid, rfl, hmore⟩⟩
    rw [play_cons, bind_of_ok hrun, left_ok]
    exact hmore
  · refine ⟨[], ?_, fun hsome => absurd rfl hsome⟩
    rw [play_cons, bind_of_error hrun, List.append_nil]

/-! ## The turn of a line -/

/-- What is found behind events that hand on no line. -/
theorem of_append_eq_handed {front rest before after : List Event} {line : Text} {heeded : Bool}
    {stops : Nat} (hfront : ∀ event ∈ front, event.handed? = none)
    (h : front ++ rest = before ++ .handed line heeded stops :: after) :
    ∃ middle, before = front ++ middle ∧ rest = middle ++ .handed line heeded stops :: after := by
  rcases List.append_eq_append_iff.mp h with ⟨middle, hbefore, hrest⟩ | ⟨middle, hbefore, hafter⟩
  · exact ⟨middle, hbefore, hrest⟩
  · cases middle with
    | nil => exact ⟨[], by simpa using hbefore.symm, by simpa using hafter.symm⟩
    | cons event middle =>
        obtain ⟨rfl, -⟩ := List.cons.inj hafter
        have hin : .handed line heeded stops ∈ front := by simp [hbefore]
        exact nomatch hfront _ hin

/-- **Each line in the log of a session was handed on in a turn of its own**, by a shell that heeded
background markers or not as the log says. -/
theorem exists_turn_of_handed {turns : List (Turn σ)} {before after : List Event} {line : Text}
    {heeded : Bool} {stops : Nat} (h : (left (play H turns sh)).world.log =
      sh.world.log ++ (before ++ .handed line heeded stops :: after)) :
    ∃ early late mid, turns = early ++ .line line :: late ∧ play H early sh = .ok () mid ∧
      mid.pid = sh.pid ∧ heeded = (!mid.interpreter.foregroundOnly) ∧
      (handedOn line mid).world.log = sh.world.log ++ (before ++ [.handed line heeded stops]) := by
  induction turns generalizing sh before with
  | nil =>
      have hnothing := List.append_right_eq_self.mp h.symm
      simp at hnothing
  | cons turn turns ih =>
      obtain ⟨hpid, new, hlog, hnew⟩ := log_turn (H := H) turn sh
      obtain ⟨rest, hrest, hgoes⟩ := log_play_cons (H := H) turn turns sh
      -- A line behind what this turn has noted was handed on in a later turn.
      have hlater : ∀ middle, rest = middle ++ .handed line heeded stops :: after →
          before = handing sh turn ++ (new ++ middle) →
          ∃ early late mid, turn :: turns = early ++ .line line :: late ∧
            play H early sh = .ok () mid ∧ mid.pid = sh.pid ∧
            heeded = (!mid.interpreter.foregroundOnly) ∧ (handedOn line mid).world.log =
              sh.world.log ++ (before ++ [.handed line heeded stops]) := by
        rintro middle hmiddle rfl
        obtain ⟨mid, hrun, hmore⟩ := hgoes (by simp [hmiddle])
        rw [hrun, left_ok] at hlog hpid
        obtain ⟨early, late, last, rfl, hplay, hsame, hheeded, hlast⟩ :=
          ih (by rw [hmore, hmiddle])
        refine ⟨turn :: early, late, last, rfl, ?_, hsame.trans hpid, hheeded, ?_⟩
        · rw [play_cons, bind_of_ok hrun]
          exact hplay
        · rw [hlast, hlog]
          simp only [List.append_assoc]
      rw [hrest, hlog, List.append_assoc, List.append_cancel_left_eq, List.append_assoc] at h
      by_cases hline : ∃ text, turn = .line text
      · obtain ⟨text, rfl⟩ := hline
        cases before with
        | nil =>
            obtain ⟨hevent, -⟩ := List.cons.inj h
            obtain ⟨rfl, rfl, rfl⟩ := Event.handed.inj hevent
            exact ⟨[], turns, sh, rfl, rfl, rfl, rfl, rfl⟩
        | cons event before =>
            obtain ⟨rfl, hbehind⟩ := List.cons.inj h
            obtain ⟨middle, rfl, hmiddle⟩ := of_append_eq_handed hnew hbehind
            exact hlater middle hmiddle rfl
      · have hnothing := handing_eq_nil (fun text h => hline ⟨text, h⟩) sh
        rw [hnothing, List.nil_append] at h
        obtain ⟨middle, rfl, hmiddle⟩ := of_append_eq_handed hnew h
        exact hlater middle hmiddle (by rw [hnothing, List.nil_append])

/-- The run comes to a shell that hands on a line, with this log, and what is left of it then is to
run what `Command.parse` reads the line as, with background markers heeded or not, to report an
error that can be mended, and to take the turns that follow. -/
def GoesOnWith (H : Host σ) (input : InputStream σ) (start : Shell (Recorded σ))
    (result : EStateM.Result Stop (Shell (Recorded σ)) Unit) (log : List Event) (line : Text)
    (heeded : Bool) : Prop :=
  ∃ (turns rest : List (Turn σ)) (sh : Shell (Recorded σ)),
    (∀ turn ∈ turns ++ rest, turn.Serves input) ∧
    play H turns start = .ok () sh ∧ (handedOn line sh).world.log = log ∧
    result = (do
      reporting H.recorded (runParsed H.recorded (Command.parse line start.pid heeded))
      play H rest) (handedOn line sh)

/-- **A session goes on with each line as the log says that it was handed on.** -/
theorem goesOnWith_of_play {input : InputStream σ} {turns : List (Turn σ)}
    (hserves : ∀ turn ∈ turns, turn.Serves input) {before after : List Event} {line : Text}
    {heeded : Bool} {stops : Nat} (h : (left (play H turns sh)).world.log =
      sh.world.log ++ (before ++ .handed line heeded stops :: after)) :
    GoesOnWith H input sh (play H turns sh)
      (sh.world.log ++ (before ++ [.handed line heeded stops])) line heeded := by
  obtain ⟨early, late, mid, rfl, hplay, hpid, rfl, hlog⟩ := exists_turn_of_handed h
  refine ⟨early, late, mid, fun turn hin => hserves turn ?_, hplay, hlog, ?_⟩
  · rcases List.mem_append.mp hin with hin | hin
    · exact List.mem_append_left _ hin
    · exact List.mem_append_right _ (List.mem_cons_of_mem _ hin)
  · have hexecute : (Turn.line line).act H mid = reporting H.recorded (runParsed H.recorded
        (Command.parse line sh.pid (!mid.interpreter.foregroundOnly))) (handedOn line mid) := by
      rw [act_line, ← hpid]
      exact reporting_congr (execute_eq_runParsed H.recorded line (handedOn line mid))
    rw [play_append, bind_of_ok hplay, play_cons]
    simp only [bind, EStateM.bind, hexecute]

/-! ## What the log says -/

/-- What is noted later, if it hands on no line and asks for no process, does not matter. -/
theorem parsed_extend {pid : UInt32} {entries : List HandedLine} {new : List Event}
    (h : ∀ entry ∈ entries, entry.Parsed pid) (hnew : ∀ event ∈ new, event.Within none) :
    ∀ entry ∈ HandedLine.extend new entries, entry.Parsed pid := by
  cases entries with
  | nil => exact h
  | cons first entries =>
      obtain ⟨hfirst, hothers⟩ := List.forall_mem_cons.mp h
      refine List.forall_mem_cons.mpr ⟨⟨fun launch child hin => ?_, fun fault hparse => ?_⟩,
        hothers⟩
      · rcases List.mem_append.mp hin with hin | hin
        · exact hfirst.created launch child hin
        · exact nomatch hnew _ hin
      · have hhead := hfirst.refused fault hparse
        rw [List.head?_append, hhead]
        rfl

/-- The first thing that is noted of a line with a fault is the complaint about it. -/
theorem act_line_of_fault {line : Text} {fault : SyntaxFault}
    (hparse : Command.parse line sh.pid (!sh.interpreter.foregroundOnly) = .error fault) :
    (left ((Turn.line line).act H sh)).world.log = (handedOn line sh).world.log ++
      [.complained s!"{reportName}: {(ShellError.malformed fault).message}\n"] := by
  have hread : Command.parse line (handedOn line sh).pid
      (!(handedOn line sh).interpreter.foregroundOnly) = .error fault := hparse
  have hfails : execute H.recorded line (handedOn line sh) =
      .error (.failed (.malformed fault)) (handedOn line sh) := by
    rw [execute_eq_runParsed, hread]
    rfl
  have hmends : (ShellError.malformed fault).isRecoverable = true := rfl
  rw [act_line, reporting_of_failed H.recorded hfails, hmends, if_pos rfl]
  rfl

/-- **What a turn preserves**: every line in the log has been read as the log says. -/
theorem parsed_turn {pid : UInt32} (hpid : sh.pid = pid)
    (h : ∀ entry ∈ handedLines sh.world.log, entry.Parsed pid) (turn : Turn σ) :
    ∀ entry ∈ handedLines (left (turn.act H sh)).world.log, entry.Parsed pid := by
  by_cases hline : ∃ text, turn = .line text
  · obtain ⟨text, rfl⟩ := hline
    obtain ⟨new, hlog, hnew⟩ := (notes_line (H := H) text sh).log
    have hlines := handedLines_of_handedOn hlog fun event hin =>
      Event.handed?_of_within (hnew event hin)
    rw [hlines]
    refine List.forall_mem_cons.mpr ⟨⟨fun launch child hin => ?_, fun fault hparse => ?_⟩, h⟩
    · subst hpid
      have hcommand : (handedLineOf text sh).command? sh.pid = some launch.command :=
        hnew _ hin
      exact HandedLine.command?_eq_some_iff.mp hcommand
    · subst hpid
      have hsame := hlog.symm.trans (act_line_of_fault hparse)
      rw [List.append_cancel_left hsame]
      rfl
  · obtain ⟨new, hlog, hnew⟩ :=
      (notes_turn (H := H) turn (fun text hsame => hline ⟨text, hsame⟩) sh).log
    rw [hlog, handedLines_append fun event hin => Event.handed?_of_within (hnew event hin)]
    exact parsed_extend h hnew

/-- **What a session preserves**: every line in the log has been read as the log says, however the
session ends. -/
theorem parsed_play {pid : UInt32} {turns : List (Turn σ)} (hpid : sh.pid = pid)
    (h : ∀ entry ∈ handedLines sh.world.log, entry.Parsed pid) :
    ∀ entry ∈ handedLines (left (play H turns sh)).world.log, entry.Parsed pid := by
  induction turns generalizing sh with
  | nil => exact h
  | cons turn turns ih =>
      have hturn := parsed_turn (H := H) hpid h turn
      have hsame := (log_turn (H := H) turn sh).1
      rcases hrun : turn.act H sh with ⟨⟨⟩, mid⟩ | ⟨stop, mid⟩ <;> rw [hrun] at hturn hsame
      · rw [play_cons, bind_of_ok hrun]
        exact ih (hsame.trans hpid) hturn
      · rw [play_cons, bind_of_error hrun]
        exact hturn

end Shell

end Conch
