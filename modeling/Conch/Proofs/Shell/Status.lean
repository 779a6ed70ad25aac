import Conch.Proofs.Shell.Session

/-!
# The status is that of the last foreground program

The log of a session falls into the lines that were handed on: what is noted after a line is what
came of it, until the next one is handed on.  A line has ended a program if waiting for it came to
an end with a cause.  Exactly the lines that run a program in the foreground have, and what the
shell remembers is the cause of the last of them, whatever else has happened: signals, changes of
the mode, jobs that begin, end and are reported, lines that are turned down.

So all that a shell says about the status, and the code with which it leaves, can be read off its
handed lines (`Answered`, `exitCode`), and of each of them only the text, whether background markers
were heeded, and the end of its program count (`HandedLine.gist`).

* `kept_turn`: what a turn preserves;
* `kept_play`, `parting_play`: what a session preserves, and how it ends;
* `status_of_last_end`: the result, for one session and for two.
-/

namespace Conch

/-- Waiting comes to an end with a cause, by the answers alone: one of them says how the child has
ended, and all before it leave the asker waiting, since the child was stopped or continued, or had
not ended, or since a signal interrupted the asker. -/
inductive EndsWith (cause : Completion) : List WaitAnswer → Prop where
  | exited {pid : ProcessId} {code : Int} {rest : List WaitAnswer} (h : cause = .exited code) :
      EndsWith cause (.exited pid code :: rest)
  | killed {pid : ProcessId} {signal : Int} {coreDumped : Bool} {rest : List WaitAnswer}
      (h : cause = .killed signal) : EndsWith cause (.killed pid signal coreDumped :: rest)
  | stopped {pid : ProcessId} {signal : Int} {rest : List WaitAnswer} (h : EndsWith cause rest) :
      EndsWith cause (.stopped pid signal :: rest)
  | continued {pid : ProcessId} {rest : List WaitAnswer} (h : EndsWith cause rest) :
      EndsWith cause (.continued pid :: rest)
  | stillAlive {rest : List WaitAnswer} (h : EndsWith cause rest) :
      EndsWith cause (.stillAlive :: rest)
  | interrupted {rest : List WaitAnswer} (h : EndsWith cause rest) :
      EndsWith cause (.failed .interrupted :: rest)

/-- What the shell makes of a series of answers is what they say: it comes to a cause if and only if
waiting ends with this cause. -/
theorem conclusion?_eq_ok_iff {answers : List WaitAnswer} {cause : Completion} :
    Shell.conclusion? answers = some (.ok cause) ↔ EndsWith cause answers := by
  constructor
  · intro h
    induction answers with
    | nil => exact nomatch h
    | cons answer answers ih =>
        cases answer with
        | exited pid code => exact .exited (Except.ok.inj (Option.some.inj h)).symm
        | killed pid signal coreDumped => exact .killed (Except.ok.inj (Option.some.inj h)).symm
        | stopped pid signal => exact .stopped (ih h)
        | continued pid => exact .continued (ih h)
        | stillAlive => exact .stillAlive (ih h)
        | failed errno =>
            by_cases hinterrupted : errno = .interrupted
            · subst hinterrupted
              exact .interrupted (ih h)
            · simp [Shell.conclusion?, WaitAnswer.completion?, hinterrupted] at h
  · intro h
    induction h with
    | exited hcause => rw [hcause]; rfl
    | killed hcause => rw [hcause]; rfl
    | stopped _ ih => exact ih
    | continued _ ih => exact ih
    | stillAlive _ ih => exact ih
    | interrupted _ ih => exact ih

namespace Event

/-- The cause with which a program that was waited for has ended. -/
def end? : Event → Option Completion
  | waited _ answers =>
    match Shell.conclusion? answers with
    | some (.ok cause) => some cause
    | _ => none
  | _ => none

/-- An event is the end of a program if the answers in it are, and then with the cause that these
tell. -/
theorem end?_eq_some_iff {event : Event} {cause : Completion} : event.end? = some cause ↔
    ∃ child answers, event = .waited child answers ∧ EndsWith cause answers := by
  constructor
  · intro h
    cases event with
    | waited child answers =>
        refine ⟨child, answers, rfl, conclusion?_eq_ok_iff.mp ?_⟩
        rw [end?] at h
        split at h
        · next hconclusion => rw [hconclusion, Option.some.inj h]
        · exact nomatch h
    | _ => exact nomatch h
  · rintro ⟨child, answers, rfl, h⟩
    rw [end?, conclusion?_eq_ok_iff.mpr h]

theorem end?_of_minor {event : Event} (h : event.Minor) : event.end? = none := by
  cases event with
  | waited pid answers => exact absurd h id
  | _ => rfl

end Event

/-- A line that was handed on, whether background markers were heeded then, and what was noted from
then on. -/
structure HandedLine where
  line : Text
  heeded : Bool
  events : List Event := []

namespace HandedLine

/-- One more event. -/
def post : List HandedLine → Event → List HandedLine
  | known, .handed line heeded _ => { line, heeded } :: known
  | [], _ => []
  | entry :: known, event => { entry with events := entry.events ++ [event] } :: known

/-- More events that hand on no line. -/
def extend (new : List Event) : List HandedLine → List HandedLine
  | [] => []
  | entry :: known => { entry with events := entry.events ++ new } :: known

/-- The cause with which the program of a line has ended. -/
def end? (entry : HandedLine) : Option Completion :=
  entry.events.findSome? Event.end?

/-- What counts for the status. -/
def gist (entry : HandedLine) : Text × Bool × Option Completion :=
  (entry.line, entry.heeded, entry.end?)

variable (pid : UInt32) (entry : HandedLine)

/-- The command that the line is to a shell with a process id. -/
def command? : Option Command :=
  match Command.parse entry.line pid entry.heeded with
  | .ok command => command
  | .error _ => none

/-- Is the line a builtin command? -/
def isBuiltin (builtin : Builtin) : Bool :=
  (entry.command? pid).any fun command => Builtin.ofName? command.program = some builtin

/-- Is the line a program to be run in the foreground? -/
def runsInFront : Bool :=
  (entry.command? pid).any fun command =>
    (Builtin.ofName? command.program).isNone && !command.background &&
      (Shell.unfitWord? command.argv).isNone

/-- What is noted right after somebody has asked for the status. -/
def reply? : Option Event :=
  if entry.isBuiltin pid .status then entry.events.head? else none

end HandedLine

/-- The lines that were handed on, by the log, the last one first. -/
def handedLines (log : List Event) : List HandedLine :=
  log.foldl HandedLine.post []

/-- The cause with which the last program of the lines has ended. -/
def lastEnd (lines : List HandedLine) : Completion :=
  (lines.findSome? HandedLine.end?).getD (.exited 0)

/-- The code with which a shell leaves after these lines. -/
def exitCode (pid : UInt32) : List HandedLine → Int
  | [] => (lastEnd []).code
  | entry :: before => if entry.isBuiltin pid .exit then 0 else (lastEnd (entry :: before)).code

/-- Exactly the foreground programs have ended, and whoever asked for the status was told of the
last of them. -/
def Answered (pid : UInt32) : List HandedLine → Prop
  | [] => True
  | entry :: before =>
    entry.end?.isSome = entry.runsInFront pid ∧
    (entry.isBuiltin pid .status = true →
      entry.reply? pid = some (.printed ((lastEnd before).text ++ "\n"))) ∧
    Answered pid before

/-! ## Handed lines -/

/-- Events that hand on no line belong to the last line that was handed on, or to none. -/
theorem handedLines_append {log new : List Event} (hnew : ∀ event ∈ new, event.handed? = none) :
    handedLines (log ++ new) = HandedLine.extend new (handedLines log) := by
  have hfold : ∀ known : List HandedLine,
      new.foldl HandedLine.post known = HandedLine.extend new known := by
    induction new with
    | nil =>
        intro known
        cases known <;> simp [HandedLine.extend]
    | cons event new ih =>
        intro known
        have hrest := ih fun other hother => hnew other (List.mem_cons_of_mem _ hother)
        have hevent := hnew event List.mem_cons_self
        rw [List.foldl_cons, hrest]
        cases known with
        | nil =>
            cases event with
            | handed line heeded stops => exact nomatch hevent
            | _ => rfl
        | cons entry known =>
            cases event with
            | handed line heeded stops => exact nomatch hevent
            | _ => simp [HandedLine.post, HandedLine.extend]
  rw [handedLines, List.foldl_append]
  exact hfold _

/-- Lines that agree in what counts have the same last end. -/
theorem lastEnd_congr {ds ds' : List HandedLine}
    (h : ds.map HandedLine.gist = ds'.map HandedLine.gist) :
    lastEnd ds = lastEnd ds' := by
  have hgist : ∀ ds : List HandedLine,
      ds.findSome? HandedLine.end? = (ds.map HandedLine.gist).findSome? fun gist => gist.2.2 := by
    intro ds
    rw [List.findSome?_map]
    rfl
  rw [lastEnd, lastEnd, hgist, hgist, h]

section Gist

variable {pid : UInt32} {d d' : HandedLine}

/-- Whether a line is a builtin command is decided by its text and by whether background markers
were heeded. -/
theorem isBuiltin_congr (h : d.gist = d'.gist) (builtin : Builtin) :
    d.isBuiltin pid builtin = d'.isBuiltin pid builtin := by
  have hline : d.line = d'.line := congrArg (·.1) h
  have hheeded : d.heeded = d'.heeded := congrArg (·.2.1) h
  rw [HandedLine.isBuiltin, HandedLine.isBuiltin, HandedLine.command?, HandedLine.command?, hline,
    hheeded]

/-- **Lines that agree in what counts** get the same replies, and the same code in the end. -/
theorem replies_congr {ds ds' : List HandedLine}
    (h : ds.map HandedLine.gist = ds'.map HandedLine.gist)
    (hanswered : Answered pid ds) (hanswered' : Answered pid ds') :
    ds.filterMap (HandedLine.reply? pid) = ds'.filterMap (HandedLine.reply? pid) ∧
      exitCode pid ds = exitCode pid ds' := by
  induction ds generalizing ds' with
  | nil =>
      obtain rfl : ds' = [] := by simpa using h.symm
      exact ⟨rfl, rfl⟩
  | cons d ds ih =>
      obtain ⟨d', ds', rfl⟩ : ∃ d' rest, ds' = d' :: rest := by
        cases ds' with
        | nil => exact nomatch h
        | cons d' rest => exact ⟨d', rest, rfl⟩
      have hall := lastEnd_congr h
      obtain ⟨hd, hds⟩ := List.cons.inj h
      obtain ⟨-, hreply, hrest⟩ := hanswered
      obtain ⟨-, hreply', hrest'⟩ := hanswered'
      obtain ⟨hreplies, -⟩ := ih hds hrest hrest'
      have hstatus : d.isBuiltin pid .status = d'.isBuiltin pid .status :=
        isBuiltin_congr hd .status
      have hexit : d.isBuiltin pid .exit = d'.isBuiltin pid .exit :=
        isBuiltin_congr hd .exit
      have hsame : d.reply? pid = d'.reply? pid := by
        by_cases hasks : d.isBuiltin pid .status = true
        · rw [hreply hasks, hreply' (hstatus ▸ hasks), lastEnd_congr hds]
        · rw [HandedLine.reply?, HandedLine.reply?, if_neg hasks, if_neg (hstatus ▸ hasks)]
      refine ⟨?_, ?_⟩
      · rw [List.filterMap_cons, List.filterMap_cons, hsame, hreplies]
      · rw [exitCode, exitCode, hexit, hall]

end Gist

namespace Shell

variable {σ : Type} {H : Host σ} {sh mid sh' : Shell (Recorded σ)}

/-! ## What is noted of a line -/

/-- What was noted, at most one program has ended, and the status is that of this program. -/
structure Adds (ended : Option Completion) (sh sh' : Shell (Recorded σ)) : Prop where
  log : ∃ new, sh'.world.log = sh.world.log ++ new ∧ (∀ event ∈ new, event.handed? = none) ∧
    new.findSome? Event.end? = ended
  pid : sh'.pid = sh.pid
  last : sh'.interpreter.status.last = ended.getD sh.interpreter.status.last

theorem findSome?_end?_of_minor {events : List Event} (h : ∀ event ∈ events, event.Minor) :
    events.findSome? Event.end? = none :=
  List.findSome?_eq_none_iff.mpr fun event hin => Event.end?_of_minor (h event hin)

/-- Where only minor events were noted no program has ended. -/
theorem adds_of_uneventful (h : Uneventful sh sh') : Adds none sh sh' := by
  obtain ⟨new, hlog, hnew⟩ := h.log
  have hends := findSome?_end?_of_minor hnew
  exact ⟨⟨new, hlog, fun event hin => Event.handed?_of_minor (hnew event hin), hends⟩, h.pid,
    congrArg ExitStatus.last h.status⟩

/-- Quiet steps end no program, and leave the status alone. -/
theorem adds_of_quiet (h : Quiet H.recorded sh sh') : Adds none sh sh' :=
  adds_of_uneventful (uneventful_of_quiet h)

/-- One part of what is done ends a program at most. -/
theorem adds_trans {before after : Option Completion} (h : Adds before sh mid)
    (h' : Adds after mid sh') (hone : before = none ∨ after = none) :
    Adds (before.or after) sh sh' := by
  obtain ⟨new, hlog, hnew, hends⟩ := h.log
  obtain ⟨new', hlog', hnew', hends'⟩ := h'.log
  refine ⟨⟨new ++ new', by rw [hlog', hlog, List.append_assoc], ?_, ?_⟩, h'.pid.trans h.pid, ?_⟩
  · intro event hin
    rcases List.mem_append.mp hin with hin | hin
    · exact hnew event hin
    · exact hnew' event hin
  · rw [List.findSome?_append, hends, hends']
  · rw [h'.last, h.last]
    rcases hone with rfl | rfl <;> simp

theorem adds_forks {command : Command} {created : Option ProcessId}
    (h : Forks H.recorded command sh created sh') : Adds none sh sh' := by
  obtain ⟨early, launch, late, -, hlog, hearly, hlate, -, hpid, hstatus⟩ := log_of_forks h
  refine ⟨⟨_, hlog, fun event hin => ?_, ?_⟩, hpid, congrArg ExitStatus.last hstatus⟩
  · rcases List.mem_append.mp hin with hin | hin
    · exact Event.handed?_of_minor (hearly event hin)
    · rcases List.mem_cons.mp hin with rfl | hin
      · rfl
      · exact Event.handed?_of_minor (hlate event hin)
  · rw [List.findSome?_append, findSome?_end?_of_minor hearly, List.findSome?_cons]
    exact findSome?_end?_of_minor hlate

/-- A program that was waited for has ended, and is remembered. -/
theorem adds_concluded {pid : ProcessId} {answers : List WaitAnswer} {cause : Completion}
    (h : Waits H.recorded pid sh answers sh') (hcause : conclusion? answers = some (.ok cause)) :
    Adds (some cause) sh (concluded H.recorded cause sh') := by
  obtain ⟨early, late, hlog, hearly, hlate, -, hpid⟩ := log_of_waits h
  have htold : (Event.waited pid answers).end? = some cause := by
    rw [Event.end?, hcause]
  have hprinted := log_printAll H cause.noticeLines sh'.world
  rw [hlog, List.append_assoc] at hprinted
  refine ⟨⟨_, hprinted, fun event hin => ?_, ?_⟩, hpid, ExitStatus.last_record _ _⟩
  · simp only [List.mem_append, List.mem_cons, List.mem_map] at hin
    rcases hin with (hin | rfl | hin) | ⟨text, -, rfl⟩
    · exact Event.handed?_of_minor (hearly event hin)
    · rfl
    · exact Event.handed?_of_minor (hlate event hin)
    · rfl
  · rw [List.findSome?_append, List.findSome?_append, findSome?_end?_of_minor hearly,
      List.findSome?_cons, htold]
    rfl

/-- A notification asks about jobs in the background, whose ends are not those of foreground
programs. -/
theorem adds_notified (sh : Shell (Recorded σ)) : Adds none sh (notified H.recorded sh) := by
  have hlog := log_notified H sh
  rw [List.append_assoc] at hlog
  refine ⟨⟨_, hlog, ?_, ?_⟩, rfl, rfl⟩
  · intro event hin
    simp only [List.mem_append, List.mem_map] at hin
    rcases hin with ⟨asked, -, rfl⟩ | ⟨job, -, rfl⟩ <;> rfl
  · rw [List.findSome?_eq_none_iff]
    intro event hin
    simp only [List.mem_append, List.mem_map] at hin
    rcases hin with ⟨asked, -, rfl⟩ | ⟨job, -, rfl⟩ <;> rfl

/-- A line that is handed on now, of which nothing has come yet. -/
def handedLineOf (line : Text) (sh : Shell (Recorded σ)) : HandedLine :=
  { line, heeded := !sh.interpreter.foregroundOnly }

/-- A line that is handed on now is the command that the shell reads it as. -/
theorem command?_handedLineOf {line : Text} {command : Command} :
    (handedLineOf line sh).command? sh.pid = some command ↔
      reading line sh = .ok (some command) := by
  rw [HandedLine.command?, handedLineOf, reading]
  cases Command.parse line sh.pid (!sh.interpreter.foregroundOnly) <;> simp

/-! ## What a turn preserves -/

/-- The status is that of the last program that has ended, and everything was answered; the shell
was not told to leave. -/
structure Kept (pid : UInt32) (sh : Shell (Recorded σ)) : Prop where
  same : sh.pid = pid
  last : sh.interpreter.status.last = lastEnd (handedLines sh.world.log)
  answered : Answered pid (handedLines sh.world.log)
  stays : ∀ entry ∈ handedLines sh.world.log, entry.isBuiltin pid .exit = false

variable {pid : UInt32}

/-- What ends no program may be noted at any time: everything was answered as before, and the last
end is the same. -/
theorem answered_extend {ds : List HandedLine} {new : List Event} (h : Answered pid ds)
    (hends : new.findSome? Event.end? = none) :
    Answered pid (HandedLine.extend new ds) ∧ lastEnd (HandedLine.extend new ds) = lastEnd ds := by
  cases ds with
  | nil => exact ⟨trivial, rfl⟩
  | cons entry before =>
      obtain ⟨hfront, hreply, hbefore⟩ := h
      have hend :
          ({ entry with events := entry.events ++ new } : HandedLine).end? = entry.end? := by
        rw [HandedLine.end?, List.findSome?_append, hends, Option.or_none]
        rfl
      refine ⟨⟨hend ▸ hfront, fun hasks => ?_, hbefore⟩, ?_⟩
      · have hsame : entry.isBuiltin pid .status = true := hasks
        have hhead : entry.events.head? = some (.printed ((lastEnd before).text ++ "\n")) := by
          have hthis := hreply hsame
          rwa [HandedLine.reply?, if_pos hsame] at hthis
        rw [HandedLine.reply?, if_pos hasks, List.head?_append, hhead]
        rfl
      · rw [HandedLine.extend, lastEnd, lastEnd, List.findSome?_cons, List.findSome?_cons, hend]

/-- What ends no program may happen to the shell at any time, and all is kept. -/
theorem kept_of_adds (h : Kept pid sh) (hadds : Adds none sh sh') : Kept pid sh' := by
  obtain ⟨new, hlog, hnew, hends⟩ := hadds.log
  obtain ⟨hanswered, hlast⟩ := answered_extend h.answered hends
  have hlines : handedLines sh'.world.log = HandedLine.extend new (handedLines sh.world.log) := by
    rw [hlog, handedLines_append hnew]
  refine ⟨hadds.pid.trans h.same, ?_, hlines ▸ hanswered, ?_⟩
  · rw [hadds.last, hlines, hlast]
    exact h.last
  · have hstays := h.stays
    rw [hlines]
    cases hknown : handedLines sh.world.log with
    | nil => exact fun _ hin => nomatch hin
    | cons entry before =>
        rw [hknown] at hstays
        intro other hin
        rcases List.mem_cons.mp hin with rfl | hin
        · exact hstays entry List.mem_cons_self
        · exact hstays other (List.mem_cons_of_mem _ hin)

/-- After a line was handed on, the handed lines are this one, with all that was noted since, and
those from before. -/
theorem handedLines_of_handedOn {line : Text} {new : List Event}
    (hlog : sh'.world.log = (handedOn line sh).world.log ++ new)
    (hnew : ∀ event ∈ new, event.handed? = none) :
    handedLines sh'.world.log =
      { handedLineOf line sh with events := new } :: handedLines sh.world.log := by
  have hhanded : handedLines (handedOn line sh).world.log =
      handedLineOf line sh :: handedLines sh.world.log := by
    have hnoted : (handedOn line sh).world.log = sh.world.log ++
        [.handed line (!sh.interpreter.foregroundOnly) sh.signals.stops] := rfl
    rw [hnoted, handedLines, List.foldl_append]
    rfl
  rw [hlog, handedLines_append hnew, hhanded]
  rfl

/-- A line that was handed on and came to its end. -/
theorem kept_of_line {line : Text} {ended : Option Completion} (h : Kept pid sh)
    (hadds : Adds ended (handedOn line sh) sh')
    (hfront : ended.isSome = (handedLineOf line sh).runsInFront pid)
    (hreply : (handedLineOf line sh).isBuiltin pid .status = true →
      ∃ rest, sh'.world.log = (handedOn line sh).world.log ++
        .printed (sh.interpreter.status.text ++ "\n") :: rest)
    (hstays : (handedLineOf line sh).isBuiltin pid .exit = false) : Kept pid sh' := by
  obtain ⟨new, hlog, hnew, hends⟩ := hadds.log
  have hlines := handedLines_of_handedOn hlog hnew
  refine ⟨hadds.pid.trans h.same, ?_, ?_, ?_⟩
  · rw [hadds.last, hlines, lastEnd, List.findSome?_cons, HandedLine.end?, hends]
    cases ended with
    | some cause => rfl
    | none => exact h.last
  · rw [hlines]
    refine ⟨?_, fun hasks => ?_, h.answered⟩
    · rw [HandedLine.end?, hends]
      exact hfront
    · obtain ⟨rest, hprinted⟩ := hreply hasks
      have hfirst := List.append_cancel_left (hlog.symm.trans hprinted)
      rw [HandedLine.reply?, if_pos hasks, hfirst, ExitStatus.text, h.last]
      rfl
  · rw [hlines]
    intro entry hin
    rcases List.mem_cons.mp hin with rfl | hin
    · exact hstays
    · exact h.stays entry hin

/-- A line that is no program and neither asks for the status nor leaves. -/
theorem kept_of_quiet_line {line : Text} (h : Kept pid sh)
    (hquiet : Quiet H.recorded (handedOn line sh) sh')
    (hfront : (handedLineOf line sh).runsInFront pid = false)
    (hasks : (handedLineOf line sh).isBuiltin pid .status = false)
    (hstays : (handedLineOf line sh).isBuiltin pid .exit = false) : Kept pid sh' := by
  refine kept_of_line h (adds_of_quiet hquiet) ?_ (fun htrue => ?_) hstays
  · rw [hfront]
    rfl
  · rw [hasks] at htrue
    exact nomatch htrue

/-- When a program was run, its end is the last one if it ran in the foreground, and otherwise
nothing has changed about the status. -/
theorem kept_of_launch {line : Text} {command : Command}
    {result : EStateM.Result Stop (Shell (Recorded σ)) Unit} (h : Kept pid sh)
    (hcommand : (handedLineOf line sh).command? pid = some command)
    (hname : Builtin.ofName? command.program = none)
    (hlaunch : Launched H.recorded command (handedOn line sh) result)
    (hreached : reached? result = some sh')
    (hmends : ∀ e mid, result = .error (.failed e) mid → e.isRecoverable = true) :
    Kept pid sh' := by
  have hasks : (handedLineOf line sh).isBuiltin pid .status = false := by
    simp [HandedLine.isBuiltin, hcommand, hname]
  have hstays : (handedLineOf line sh).isBuiltin pid .exit = false := by
    simp [HandedLine.isBuiltin, hcommand, hname]
  have hfront : (handedLineOf line sh).runsInFront pid =
      (!command.background && (unfitWord? command.argv).isNone) := by
    simp [HandedLine.runsInFront, hcommand, hname]
  have hnoReply : ∀ {p : Prop}, (handedLineOf line sh).isBuiltin pid .status = true → p := by
    intro p htrue
    rw [hasks] at htrue
    exact nomatch htrue
  cases hlaunch with
  | refused hreason =>
      obtain rfl := Option.some.inj hreached
      have hidle : (handedLineOf line sh).runsInFront pid = false := by
        rw [hfront]
        cases hreason with
        | full hbackground hfull => rw [hbackground]; rfl
        | unfit hroom hword => rw [hword, Option.isNone_some, Bool.and_false]
      exact kept_of_quiet_line h ((quiet H.recorded).refl _) hidle hasks hstays
  | unborn hfork => exact nomatch hmends _ _ rfl
  | @behind child forked jobs hbackground hfork hregister =>
      obtain rfl := Option.some.inj hreached
      have htracked : Adds none forked { forked with
          jobs
          world := H.recorded.print (Job.begunText child ++ "\n") forked.world } :=
        ⟨⟨[.printed (Job.begunText child ++ "\n")], rfl, by simp [Event.handed?],
          by simp [Event.end?]⟩, rfl, rfl⟩
      have hbegun := adds_trans (adds_forks hfork) htracked (.inl rfl)
      have hadds := adds_trans hbegun (adds_notified (H := H) _) (.inl rfl)
      refine kept_of_line h hadds ?_ hnoReply hstays
      rw [hfront, hbackground]
      rfl
  | inFront hbehind hfit hfork hwait hcause =>
      obtain rfl := Option.some.inj hreached
      have hended := adds_trans (adds_forks hfork) (adds_concluded hwait hcause) (.inl rfl)
      have hadds := adds_trans hended (adds_notified (H := H) _) (.inr rfl)
      refine kept_of_line h hadds ?_ hnoReply hstays
      rw [hfront, hbehind, hfit]
      rfl
  | abandoned hbehind hfork hwait herrno => exact nomatch hmends _ _ rfl
  | ended hleaves => exact nomatch hreached

/-- What a line does to a shell that goes on. -/
theorem kept_execute {line : Text} (h : Kept pid sh)
    (hreached : reached? (execute H.recorded line (handedOn line sh)) = some sh')
    (hmends : ∀ e mid, execute H.recorded line (handedOn line sh) = .error (.failed e) mid →
      e.isRecoverable = true) : Kept pid sh' := by
  obtain rfl := h.same
  have hread : ∀ command, (handedLineOf line sh).command? sh.pid = some command ↔
      reading line (handedOn line sh) = .ok (some command) := fun command => command?_handedLineOf
  by_cases hasks : (handedLineOf line sh).isBuiltin sh.pid .status = true
  · obtain ⟨command, hcommand, hname⟩ := (Option.any_eq_true _ _).mp hasks
    replace hname := of_decide_eq_true hname
    rw [execute_status H.recorded ((hread command).mp hcommand) hname] at hreached
    obtain rfl := Option.some.inj hreached
    have hother : Job.cut? (sh.interpreter.status.text ++ "\n") = none := Completion.cut?_text _
    have hquiet : Quiet H.recorded (handedOn line sh) { handedOn line sh with
        world := H.recorded.print (sh.interpreter.status.text ++ "\n")
          (handedOn line sh).world } := (QuietStep.print _ hother).quiet
    refine kept_of_line h (adds_of_quiet hquiet) ?_ (fun _ => ⟨[], rfl⟩) ?_
    · simp [HandedLine.runsInFront, hcommand, hname]
    · simp [HandedLine.isBuiltin, hcommand, hname]
  rw [Bool.not_eq_true] at hasks
  have hexecuted := executed H.recorded line (handedOn line sh)
  generalize execute H.recorded line (handedOn line sh) = result at hreached hmends hexecuted
  cases hexecuted with
  | quietly hplain hleft hquiet =>
      obtain rfl := Option.some.inj (hleft.symm.trans hreached)
      refine kept_of_quiet_line h hquiet ?_ hasks ?_
      · refine (Option.any_eq_false _ _).mpr fun command hcommand => ?_
        have hname := (hplain command ((hread command).mp hcommand)).1
        simp [hname]
      · refine (Option.any_eq_false _ _).mpr fun command hcommand => ?_
        have hname := (hplain command ((hread command).mp hcommand)).2
        simp [hname]
  | leaves hparse hname => exact nomatch hreached
  | launches hparse hname hlaunch =>
      exact kept_of_launch h ((hread _).mpr hparse) hname hlaunch hreached hmends

/-- **What a turn preserves**: the status is that of the last program that has ended, and everything
was answered. -/
theorem kept_turn {turn : Turn σ} (h : Kept pid sh) (hrun : turn.act H sh = .ok () sh') :
    Kept pid sh' := by
  have hquiet : (quiet H.recorded).Bounds (turn.act H) → Kept pid sh' := fun hbounds =>
    kept_of_adds h (adds_of_quiet (quiet_of_ok hbounds hrun))
  cases turn with
  | line text =>
      rcases of_act_line_eq_ok hrun with hexecute | ⟨e, mid, hexecute, hmends, hreport⟩
      · refine kept_execute h (by rw [hexecute]; rfl) fun e mid hfailed => ?_
        rw [hexecute] at hfailed
        exact nomatch hfailed
      · have hmid : Kept pid mid := by
          refine kept_execute h (by rw [hexecute]; rfl) fun e' mid' hfailed => ?_
          rw [hexecute] at hfailed
          obtain ⟨⟨⟩, -⟩ := EStateM.Result.error.inj hfailed
          exact hmends
        exact kept_of_adds hmid (adds_of_quiet hreport)
  | signals => exact hquiet (quiet_takeSignals H.recorded)
  | poll => exact hquiet (quiet_pollSignals H.recorded)
  | reset => exact hquiet fun _ => .single (.memory _ rfl)
  | say text hother => exact hquiet (quiet_print H.recorded hother)
  | notify =>
      obtain ⟨-, rfl⟩ := EStateM.Result.ok.inj ((notify_eq H.recorded sh).symm.trans hrun)
      exact kept_of_adds h (adds_notified sh)
  | read input n =>
      obtain ⟨-, rfl⟩ := EStateM.Result.ok.inj hrun
      exact kept_of_adds h (adds_of_uneventful (uneventful_note sh (.read _) trivial _))
  | meanwhile change =>
      obtain ⟨-, rfl⟩ := EStateM.Result.ok.inj hrun
      exact kept_of_adds h (adds_of_uneventful ⟨⟨[], by simp⟩, rfl, rfl, rfl⟩)
  | fault errno => exact nomatch hrun
  | stall => exact nomatch hrun
  | quit =>
      rw [Turn.act, leave_eq] at hrun
      exact nomatch hrun

/-! ## How a session ends -/

/-- The code with which the shell leaves of its own accord. -/
theorem exitCode_extend {ds : List HandedLine} {new : List Event}
    (hends : new.findSome? Event.end? = none)
    (hstays : ∀ entry ∈ ds, entry.isBuiltin pid .exit = false) (hanswered : Answered pid ds) :
    exitCode pid (HandedLine.extend new ds) = (lastEnd ds).code := by
  have hlast := (answered_extend hanswered hends).2
  cases ds with
  | nil => rfl
  | cons entry before =>
      have hstay : ({ entry with
          events := entry.events ++ new } : HandedLine).isBuiltin pid .exit = false :=
        hstays entry List.mem_cons_self
      rw [← hlast, HandedLine.extend, exitCode, hstay]
      rfl

/-- A line that tells the shell to leave makes it do so with code zero, and everything was
answered. -/
theorem parting_line {line : Text} {command : Command} {code : Int} (h : Kept pid sh)
    (hparse : reading line (handedOn line sh) = .ok (some command))
    (hname : Builtin.ofName? command.program = some .exit)
    (hrun : (leave H.recorded (some 0) : Act (Recorded σ) Unit) (handedOn line sh) =
      .error (.ended (.exited code)) sh') :
    Answered pid (handedLines sh'.world.log) ∧ code = exitCode pid (handedLines sh'.world.log) := by
  obtain rfl := h.same
  obtain ⟨new, hlog, hnew, hends⟩ := (adds_of_quiet (quiet_of_leave hrun)).log
  have hlines := handedLines_of_handedOn hlog hnew
  have hcommand :
      ({ handedLineOf line sh with events := new } : HandedLine).command? sh.pid = some command :=
    command?_handedLineOf.mpr hparse
  have hexit :
      ({ handedLineOf line sh with events := new } : HandedLine).isBuiltin sh.pid .exit = true := by
    simp [HandedLine.isBuiltin, hcommand, hname]
  rw [hlines]
  refine ⟨⟨?_, ?_, h.answered⟩, ?_⟩
  · rw [HandedLine.end?, hends]
    simp [HandedLine.runsInFront, hcommand, hname]
  · intro hasks
    simp [HandedLine.isBuiltin, hcommand, hname] at hasks
  · rw [leave_eq] at hrun
    obtain ⟨⟨⟩, -⟩ := EStateM.Result.error.inj hrun
    rw [exitCode, hexit]
    rfl

/-- **How a session ends**, if the shell leaves in this turn: everything was answered, and the code
is that of the last program, or zero if it was told to leave. -/
theorem parting_turn {turn : Turn σ} {code : Int} (h : Kept pid sh)
    (hrun : turn.act H sh = .error (.ended (.exited code)) sh') :
    Answered pid (handedLines sh'.world.log) ∧ code = exitCode pid (handedLines sh'.world.log) := by
  rcases of_act_eq_exited hrun with hleave | ⟨line, command, hparse, hname, hleave⟩
  · obtain ⟨new, hlog, hnew, hends⟩ := (adds_of_quiet (quiet_of_leave hleave)).log
    have hcode : code = sh.interpreter.status.last.code := by
      rw [leave_eq] at hleave
      obtain ⟨⟨⟩, -⟩ := EStateM.Result.error.inj hleave
      rfl
    rw [hlog, handedLines_append hnew]
    refine ⟨(answered_extend h.answered hends).1, ?_⟩
    rw [exitCode_extend hends h.stays h.answered, hcode, h.last]
  · exact parting_line h hparse hname hleave

/-- **What a session preserves**, if it goes on: the status is that of the last program that has
ended, and everything was answered. -/
theorem kept_play {turns : List (Turn σ)} (h : Kept pid sh) (hrun : play H turns sh = .ok () sh') :
    Kept pid sh' := by
  induction turns generalizing sh with
  | nil =>
      obtain ⟨-, rfl⟩ := EStateM.Result.ok.inj hrun
      exact h
  | cons turn turns ih =>
      rw [play_cons] at hrun
      obtain ⟨⟨⟩, mid, hturn, hrest⟩ := of_bind_eq_ok hrun
      exact ih (kept_turn h hturn) hrest

/-- **How a session ends in which the shell leaves**: everything was answered, and the code is that
of the last program. -/
theorem parting_play {turns : List (Turn σ)} {code : Int} (h : Kept pid sh)
    (hrun : play H turns sh = .error (.ended (.exited code)) sh') :
    Answered pid (handedLines sh'.world.log) ∧ code = exitCode pid (handedLines sh'.world.log) := by
  induction turns generalizing sh with
  | nil => exact nomatch hrun
  | cons turn turns ih =>
      rw [play_cons] at hrun
      rcases of_bind_eq_error hrun with hturn | ⟨⟨⟩, mid, hturn, hrest⟩
      · exact parting_turn h hturn
      · exact ih (kept_turn h hturn) hrest

/-! ## The result -/

/-- A session has gone through its turns, or the shell has left with a code; nothing has failed. -/
inductive Ran (H : Host σ) (start : Shell σ) (turns : List (Turn σ)) :
    List Event → Option Int → Prop where
  | still {sh' : Shell (Recorded σ)} (hplay : play H turns (recorded start) = .ok () sh') :
      Ran H start turns sh'.world.log none
  | left {sh' : Shell (Recorded σ)} {code : Int}
      (hplay : play H turns (recorded start) = .error (.ended (.exited code)) sh') :
      Ran H start turns sh'.world.log (some code)

/-- Why an action has stopped short, if it has. -/
def stop? : EStateM.Result Stop (Shell (Recorded σ)) Unit → Option Stop
  | .ok _ _ => none
  | .error stop _ => some stop

/-- A session in which the shell has left with a code has run, and come to that. -/
theorem Ran.of_stop {start : Shell σ} {turns : List (Turn σ)} {code : Int}
    (h : stop? (play H turns (recorded start)) = some (.ended (.exited code))) :
    Ran H start turns (Shell.left (play H turns (recorded start))).world.log (some code) := by
  cases hplay : play H turns (recorded start) with
  | ok a sh' =>
      rw [hplay] at h
      exact nomatch h
  | error stop sh' =>
      rw [hplay] at h
      obtain rfl := Option.some.inj h
      exact .left hplay

/-- A new shell has run nothing, and what it remembers is an exit with code zero. -/
theorem kept_fresh (config : Config) (pid : UInt32) (signals : SignalState) (world : σ) :
    Kept pid (recorded (fresh config pid signals world)) :=
  ⟨rfl, rfl, trivial, fun _ hin => nomatch hin⟩

/-- Whether a session goes on or the shell has left, everything was answered, and the code is the
right one. -/
theorem answered_of_ran {config : Config} {signals : SignalState} {world : σ}
    {turns : List (Turn σ)} {log : List Event} {code : Option Int}
    (h : Ran H (fresh config pid signals world) turns log code) :
    Answered pid (handedLines log) ∧ ∀ c ∈ code, c = exitCode pid (handedLines log) := by
  have hstart := kept_fresh config pid signals world
  cases h with
  | still hplay => exact ⟨(kept_play hstart hplay).answered, fun c hc => nomatch hc⟩
  | left hplay =>
      obtain ⟨hanswered, hcode⟩ := parting_play hstart hplay
      refine ⟨hanswered, fun c hc => ?_⟩
      obtain rfl := Option.some.inj hc
      exact hcode

/-- **The status is that of the last foreground program, and of nothing else.**  In every session of
a new shell that goes on, what is remembered is the cause with which the program of the last line
that ran one in the foreground has ended, or exit code zero.  The cause is read off the answers that
the system has given: it is what the first one says that does not leave the asker waiting.  Exactly
the lines that are to run a program in the foreground have ended one, every request for the status
was answered by the cause of the last one before it, and the shell leaves with the code of the last
one or, if it was told to, with zero.  Two sessions, on whatever hosts, whose lines agree in their
text, in whether background markers were heeded and in the ends of their programs, give the same
answers and leave with the same code.  To serve a stream and leave is such a session. -/
theorem status_of_last_end (H : Host σ) (config : Config) (pid : UInt32) (signals : SignalState)
    (world : σ) (turns : List (Turn σ)) :
    (∀ (event : Event) (cause : Completion), event.end? = some cause ↔
      ∃ child answers, event = .waited child answers ∧ EndsWith cause answers) ∧
    (∀ sh', play H turns (recorded (fresh config pid signals world)) = .ok () sh' →
      sh'.interpreter.status.last = lastEnd (handedLines sh'.world.log)) ∧
    (∀ log code, Ran H (fresh config pid signals world) turns log code →
      Answered pid (handedLines log) ∧ ∀ c ∈ code, c = exitCode pid (handedLines log)) ∧
    (∀ (τ : Type) (H' : Host τ) (config' : Config) (signals' : SignalState) (world' : τ)
        (turns' : List (Turn τ)) (log log' : List Event) (code code' : Option Int),
      Ran H (fresh config pid signals world) turns log code →
      Ran H' (fresh config' pid signals' world') turns' log' code' →
      (handedLines log).map HandedLine.gist = (handedLines log').map HandedLine.gist →
      (handedLines log).filterMap (HandedLine.reply? pid) =
          (handedLines log').filterMap (HandedLine.reply? pid) ∧
        ∀ c ∈ code, ∀ c' ∈ code', c = c') ∧
    ∀ (input : InputStream σ) (prompted : Bool) (fuel : Nat) (sh : Shell (Recorded σ)),
      ∃ turns : List (Turn σ), play H turns sh =
        (do serve H.recorded input.recorded (if prompted then some promptText else none)
              (executeNoted H) fuel {}
            leave H.recorded none) sh := by
  refine ⟨fun event cause => Event.end?_eq_some_iff,
    fun sh' hplay => (kept_play (kept_fresh config pid signals world) hplay).last,
    fun log code hran => answered_of_ran hran, ?_, ?_⟩
  · intro τ H' config' signals' world' turns' log log' code code' hran hran' hgist
    obtain ⟨hanswered, hcode⟩ := answered_of_ran hran
    obtain ⟨hanswered', hcode'⟩ := answered_of_ran hran'
    obtain ⟨hreplies, hexit⟩ := replies_congr hgist hanswered hanswered'
    refine ⟨hreplies, fun c hc c' hc' => ?_⟩
    rw [hcode c hc, hcode' c' hc', hexit]
  · intro input prompted fuel sh
    obtain ⟨turns, -, hplay⟩ :=
      exists_turns_of_serve H input (cut?_promptText prompted) fuel {} sh
    exact ⟨turns, hplay⟩

/-- A program is started in the background and another one, which exits with code three, in the
foreground; somebody asks for the status and leaves. -/
def statusTurns : List (Turn SampleWorld) :=
  ["mv &", "sh", "status", "exit"].map fun line => .line line.toList

/-- The same lines, with notifications and signals between them. -/
def busyStatusTurns : List (Turn SampleWorld) :=
  statusTurns.flatMap fun turn => [.notify, .signals, .poll, turn]

/-- A host on which everything that somebody asks about has been killed. -/
def deadlyHost (answers : List WaitAnswer) : Host SampleWorld :=
  { sampleHost answers with poll := fun pid world => (.killed pid 9 false, world) }

/-- The log of these turns. -/
def statusLog : List Event :=
  (left (play (sampleHost [.exited ⟨7⟩ 3]) statusTurns (recorded (sampleShell {})))).world.log

/-- The log of the turns with notifications, where the background program is killed. -/
def busyStatusLog : List Event :=
  (left (play (deadlyHost [.failed .interrupted, .exited ⟨7⟩ 3]) busyStatusTurns
    (recorded (sampleShell {})))).world.log

/-- The two sessions get the same answer and come to the same end, though only one of them hears of
the end of the background program. -/
theorem status_of_last_end_of_turns :
    Ran (sampleHost [.exited ⟨7⟩ 3]) (sampleShell {}) statusTurns statusLog (some 0) ∧
    Ran (deadlyHost [.failed .interrupted, .exited ⟨7⟩ 3]) (sampleShell {}) busyStatusTurns
      busyStatusLog (some 0) ∧
    (handedLines statusLog).map HandedLine.gist = (handedLines busyStatusLog).map HandedLine.gist ∧
    (handedLines statusLog).filterMap (HandedLine.reply? 1) = [.printed "exit value 3\n"] ∧
    (handedLines busyStatusLog).filterMap (HandedLine.reply? 1) = [.printed "exit value 3\n"] := by
  have hran : Ran (sampleHost [.exited ⟨7⟩ 3]) (sampleShell {}) statusTurns statusLog (some 0) :=
    .of_stop (by decide +kernel)
  have hbusy : Ran (deadlyHost [.failed .interrupted, .exited ⟨7⟩ 3]) (sampleShell {})
      busyStatusTurns busyStatusLog (some 0) := .of_stop (by decide +kernel)
  have hgist : (handedLines statusLog).map HandedLine.gist =
      (handedLines busyStatusLog).map HandedLine.gist := by
    decide +kernel
  have hreply : (handedLines statusLog).filterMap (HandedLine.reply? 1) =
      [.printed "exit value 3\n"] := by
    decide +kernel
  obtain ⟨-, -, -, htwo, -⟩ :=
    status_of_last_end (sampleHost [.exited ⟨7⟩ 3]) {} 1 {} {} statusTurns
  have hsame := (htwo SampleWorld _ {} {} {} busyStatusTurns _ _ _ _ hran hbusy hgist).1
  exact ⟨hran, hbusy, hgist, hreply, hsame ▸ hreply⟩

end Shell

end Conch
