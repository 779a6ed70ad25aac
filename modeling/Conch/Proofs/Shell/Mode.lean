import Conch.Proofs.Shell.Parsing
import Conch.Proofs.Shell.Survival

/-!
# Lines, signals and the mode of a shell

While a shell serves a stream, signals come in wherever they like: before it looks for them,
between looking and reading, while it reads, after it, while a line is executed.  None of this costs
a line: every line that the reader returns is handed on to be executed, once and in order.  And none
of it costs a stop signal: when a line is handed on, background markers are heeded exactly if the
number of stop signals handled up to then is even, and there has been one announcement for each of
them, of one mode and the other in turn.

The invariant of the loop is `InStep`.  Only the poll changes the mode, and it does so once for each
stop signal that has been handled since the poll before (`consistent_times`); everything else is
steady.  What a shell does is read off the log of the recorded host.  That a line is read with
background markers heeded as the log says is a property of the sessions that a stream is served in
(`goesOnWith_of_play`, `parsed_play`).

* `inStep_readLine`, `inStep_poll`, `inStep_hand`: what the steps of a round preserve;
* `settled_serve`: what any number of rounds preserves;
* `lines_and_mode`: the result for the log as a whole.
-/

namespace Conch

/-- The line that an attempt to read returns, if it returns one. -/
def ReadOutcome.line? : ReadOutcome → Option Text
  | line text => some text
  | interrupted | endOfInput | failed _ => none

/-- Is a process to run in the background, if the event is that one was asked for? -/
def Event.background? : Event → Option Bool
  | created launch _ => some launch.command.background
  | _ => none

namespace LineReader

/-- What successive attempts to read a line come to, given what the stream offers each of them. -/
def outcomes : LineReader → List (List ReadAnswer) → List ReadOutcome
  | _, [] => []
  | r, offered :: more => (r.readLine offered).1 :: outcomes (r.readLine offered).2.1 more

/-- The reader after these attempts. -/
def afterAll : LineReader → List (List ReadAnswer) → LineReader
  | r, [] => r
  | r, offered :: more => afterAll (r.readLine offered).2.1 more

/-- One attempt more adds its outcome to those of the attempts before it. -/
theorem outcomes_append (r : LineReader) (offers : List (List ReadAnswer))
    (offered : List ReadAnswer) : r.outcomes (offers ++ [offered]) =
      r.outcomes offers ++ [((r.afterAll offers).readLine offered).1] := by
  induction offers generalizing r with
  | nil => rfl
  | cons first offers ih => exact congrArg _ (ih _)

/-- One attempt more goes on with the reader that the attempts before it have left. -/
theorem afterAll_append (r : LineReader) (offers : List (List ReadAnswer))
    (offered : List ReadAnswer) : r.afterAll (offers ++ [offered]) =
      ((r.afterAll offers).readLine offered).2.1 := by
  induction offers generalizing r with
  | nil => rfl
  | cons first offers ih => exact ih _

/-- A reader that holds a line does not look at what it is offered. -/
theorem readLine_of_takeLine {r : LineReader} (h : r.takeLine.isSome = true)
    (answers answers' : List ReadAnswer) :
    (r.readLine answers).1 = (r.readLine answers').1 ∧
      (r.readLine answers).2.1 = (r.readLine answers').2.1 := by
  obtain ⟨⟨text, r'⟩, htake⟩ := Option.isSome_iff_exists.mp h
  have hread : ∀ answers, r.readLine answers = (.line text, r', answers) := by
    intro answers
    unfold readLine
    simp [htake]
  simp [hread]

end LineReader

/-- The announcements that so many stop signals lead to, if background markers are heeded at
first. -/
def alternation (n : Nat) : List String :=
  (List.range n).map fun i => announcement (decide (i % 2 = 0))

/-- The last of the alternating announcements is that the mode begins if their number is odd, and
that it ends if it is even. -/
theorem alternation_succ (n : Nat) :
    alternation (n + 1) = alternation n ++ [announcement (decide (n % 2 = 0))] := by
  simp [alternation, List.range_succ]

namespace Shell

variable {σ : Type}

/-- Wherever the log says that a line was handed on, background markers were heeded exactly if the
number of stop signals was even, and as many announcements had been made. -/
def Heeds (start : Nat) (log : List Event) : Prop :=
  ∀ before line heeded stops after, log = before ++ .handed line heeded stops :: after →
    heeded = decide ((stops - start) % 2 = 0) ∧
      before.filterMap Event.announcement? = alternation (stops - start)

/-- The log, the reader and the mode belong together: so many stop signals since the `start` have
been turned into changes of the mode, and of the lines that were read these are `owed`.

The reader is what all attempts have made of it, and the lines that were read have been handed on,
but for those that are owed.  Background markers are ignored after an odd number of changes, each
change was announced, and this was so as well whenever a line was handed on. -/
structure Consistent (start taken : Nat) (owed : List Text) (reader : LineReader)
    (sh : Shell (Recorded σ)) : Prop where
  reader : LineReader.afterAll {} (sh.world.log.filterMap Event.offered?) = reader
  lines : (LineReader.outcomes {} (sh.world.log.filterMap Event.offered?)).filterMap
    ReadOutcome.line? = sh.world.log.filterMap Event.handed? ++ owed
  mode : sh.interpreter.foregroundOnly = decide (taken % 2 = 1)
  announced : sh.world.log.filterMap Event.announcement? = alternation taken
  heeds : Heeds start sh.world.log

/-- Between the steps of a round, the changes of the mode are as many as the stop signals that have
been asked for; nobody had asked for more at the start, and nobody asks for some that have not been
handled. -/
structure InStep (start : Nat) (owed : List Text) (reader : LineReader)
    (sh : Shell (Recorded σ)) : Prop where
  consistent : Consistent start (sh.signals.stopsTaken - start) owed reader sh
  started : start ≤ sh.signals.stopsTaken
  counted : sh.signals.stopsTaken ≤ sh.signals.stops

/-! ## The log -/

/-- Events that are not about lines do not matter to the lines that were handed on. -/
theorem heeds_append {start : Nat} {log new : List Event} (h : Heeds start log)
    (hnew : ∀ event ∈ new, event.handed? = none) : Heeds start (log ++ new) := by
  intro before line heeded stops after hsplit
  have hnot : Event.handed line heeded stops ∉ new := fun hin => by
    have hnone := hnew _ hin
    simp [Event.handed?] at hnone
  rcases List.append_eq_append_iff.mp hsplit with ⟨rest, -, hrest⟩ | ⟨rest, hlog, hrest⟩
  · exact absurd (by rw [hrest]; simp) hnot
  · cases rest with
    | nil => exact absurd (by rw [List.nil_append] at hrest; rw [← hrest]; simp) hnot
    | cons event rest =>
        obtain ⟨rfl, rfl⟩ := List.cons.inj hrest
        exact h before line heeded stops rest hlog

/-- A line may be handed on when it is treated as it should be. -/
theorem heeds_handed {start stops : Nat} {log : List Event} {line : Text} {heeded : Bool}
    (h : Heeds start log) (hheeded : heeded = decide ((stops - start) % 2 = 0))
    (hannounced : log.filterMap Event.announcement? = alternation (stops - start)) :
    Heeds start (log ++ [.handed line heeded stops]) := by
  intro before line' heeded' stops' after hsplit
  rcases List.eq_nil_or_concat after with rfl | ⟨after, last, rfl⟩
  · obtain ⟨rfl, hlast⟩ := List.append_inj' hsplit rfl
    simp only [List.cons.injEq, Event.handed.injEq, and_true] at hlast
    obtain ⟨rfl, rfl, rfl⟩ := hlast
    exact ⟨hheeded, hannounced⟩
  · rw [List.concat_eq_append, ← List.cons_append, ← List.append_assoc] at hsplit
    exact h before line' heeded' stops' after (List.append_inj' hsplit rfl).1

/-- Plain events change nothing that is read off the log. -/
theorem filterMap_plain {α : Type} {f : Event → Option α} (log : List Event) {new : List Event}
    (hnew : ∀ event ∈ new, f event = none) :
    (log ++ new).filterMap f = log.filterMap f := by
  rw [List.filterMap_append, List.filterMap_eq_nil_iff.mpr hnew, List.append_nil]

/-! ## Steps of a round -/

section Steps

variable {start : Nat} {owed : List Text} {reader : LineReader} {sh sh' : Shell (Recorded σ)}

/-- Log, reader and mode go on belonging together through whatever is steady. -/
theorem consistent_of_steady {taken : Nat} (h : Consistent start taken owed reader sh)
    (hsteady : Steady sh sh') : Consistent start taken owed reader sh' := by
  obtain ⟨new, hlog, hnew⟩ := hsteady.log
  have hoffered := filterMap_plain sh.world.log fun event hin => (hnew event hin).offered
  have hhanded := filterMap_plain sh.world.log fun event hin => (hnew event hin).handed
  have hannounced := filterMap_plain sh.world.log fun event hin =>
    (hnew event hin).announcement
  refine ⟨?_, ?_, hsteady.mode.trans h.mode, ?_, ?_⟩
  · rw [hlog, hoffered]
    exact h.reader
  · rw [hlog, hoffered, hhanded]
    exact h.lines
  · rw [hlog, hannounced]
    exact h.announced
  · rw [hlog]
    exact heeds_append h.heeds fun event hin => (hnew event hin).handed

/-- A steady change leaves the shell in step: no mode, no line and no stop signal that was asked for
is concerned. -/
theorem inStep_of_steady (h : InStep start owed reader sh) (hsteady : Steady sh sh') :
    InStep start owed reader sh' := by
  have hstops := hsteady.stops
  have hcounted := h.counted
  refine ⟨?_, ?_, ?_⟩
  · rw [hsteady.taken]
    exact consistent_of_steady h.consistent hsteady
  · rw [hsteady.taken]
    exact h.started
  · rw [hsteady.taken]
    omega

variable (H : Host σ)

/-- The announcement of a mode is understood as one when it is printed. -/
theorem announcement?_printed (mode : Bool) :
    (Event.printed (announcement mode)).announcement? = some (announcement mode) := by
  cases mode <;> simp [Event.announcement?]

/-- One change of the mode is announced, and counts as one stop signal more that has been turned
into a change. -/
theorem consistent_toggle {taken : Nat} (h : Consistent start taken owed reader sh) :
    ∃ sh', toggleMode H.recorded sh = .ok () sh' ∧ sh'.signals = sh.signals ∧
      Consistent start (taken + 1) owed reader sh' := by
  have hnext : (!sh.interpreter.foregroundOnly) = decide (taken % 2 = 0) := by
    rw [h.mode, ← decide_not]
    exact decide_eq_decide.mpr (by omega)
  have hafter : decide (taken % 2 = 0) = decide ((taken + 1) % 2 = 1) :=
    decide_eq_decide.mpr (by omega)
  let event := Event.printed (announcement (!sh.interpreter.foregroundOnly))
  let sh' : Shell (Recorded σ) := { sh with
    interpreter := { sh.interpreter with foregroundOnly := !sh.interpreter.foregroundOnly }
    world := sh.world.note event
      (H.print (announcement (!sh.interpreter.foregroundOnly)) sh.world.world) }
  have hlog : ∀ {α : Type} (f : Event → Option α),
      sh'.world.log.filterMap f = sh.world.log.filterMap f ++ (f event).toList := fun f =>
    Recorded.filterMap_log_note f _ _ _
  refine ⟨sh', rfl, rfl, ?_, ?_, hnext.trans hafter, ?_, ?_⟩
  · rw [hlog]
    simpa [event, Event.offered?] using h.reader
  · rw [hlog, hlog]
    simpa [event, Event.offered?, Event.handed?] using h.lines
  · rw [hlog, announcement?_printed, h.announced, alternation_succ, ← hnext]
    rfl
  · exact heeds_append h.heeds (by simp [Event.handed?])

/-- Several changes of the mode, one after the other, count as so many stop signals more, each with
its announcement. -/
theorem consistent_times (n : Nat) {taken : Nat} {sh : Shell (Recorded σ)}
    (h : Consistent start taken owed reader sh) :
    ∃ sh', times (toggleMode H.recorded) n sh = .ok () sh' ∧ sh'.signals = sh.signals ∧
      Consistent start (taken + n) owed reader sh' := by
  induction n generalizing taken sh with
  | zero => exact ⟨sh, rfl, rfl, h⟩
  | succ n ih =>
      obtain ⟨mid, htoggle, hsignals, hmid⟩ := consistent_toggle H h
      obtain ⟨sh', htimes, hsignals', hafter⟩ := ih hmid
      refine ⟨sh', ?_, hsignals'.trans hsignals, ?_⟩
      · rw [times, bind_of_ok htoggle, htimes]
      · rwa [Nat.add_right_comm, Nat.add_assoc] at hafter

/-- **The poll turns each stop signal into one change of the mode**, however many there are. -/
theorem inStep_poll (h : InStep start owed reader sh) :
    ∃ sh', pollSignals H.recorded sh = .ok () sh' ∧ InStep start owed reader sh' ∧
      sh'.signals.stopsTaken = sh'.signals.stops := by
  have hstarted := h.started
  have hcounted := h.counted
  have hbefore : Consistent start (sh.signals.stopsTaken - start) owed reader { sh with
      signals := { sh.signals with caught := false, stopsTaken := sh.signals.stops }
      interpreter := { sh.interpreter with
        signalCaught := sh.interpreter.signalCaught || sh.signals.caught } } :=
    ⟨h.consistent.reader, h.consistent.lines, h.consistent.mode, h.consistent.announced,
      h.consistent.heeds⟩
  obtain ⟨sh', htimes, hsignals, hafter⟩ :=
    consistent_times H (sh.signals.stops - sh.signals.stopsTaken) hbefore
  have hstops : sh'.signals.stops = sh.signals.stops := by rw [hsignals]
  have htaken : sh'.signals.stopsTaken = sh.signals.stops := by rw [hsignals]
  have hsum : sh.signals.stopsTaken - start + (sh.signals.stops - sh.signals.stopsTaken) =
      sh'.signals.stopsTaken - start := by omega
  rw [hsum] at hafter
  exact ⟨sh', htimes, ⟨hafter, by omega, by omega⟩, htaken.trans hstops.symm⟩

/-- What the reader returns is owed from then on, if it is a line, and nothing else changes. -/
theorem inStep_readLine (input : InputStream σ) (h : InStep start [] reader sh) :
    ∃ read sh', readLine input.recorded reader sh = .ok read sh' ∧
      InStep start read.1.line?.toList read.2 sh' := by
  let offered := input.answers sh.world.world
  let answers := if reader.takeLine.isSome then [] else offered
  have hread : (reader.readLine answers).1 = (reader.readLine offered).1 ∧
      (reader.readLine answers).2.1 = (reader.readLine offered).2.1 := by
    by_cases htake : reader.takeLine.isSome = true
    · exact LineReader.readLine_of_takeLine htake answers offered
    · have hall : answers = offered := if_neg htake
      rw [hall]
      exact ⟨rfl, rfl⟩
  let sh' : Shell (Recorded σ) := { sh with
    world := input.recorded.advance
      (answers.length - (reader.readLine answers).2.2.length) sh.world }
  have hlog : ∀ {α : Type} (f : Event → Option α), sh'.world.log.filterMap f =
      sh.world.log.filterMap f ++ (f (.read offered)).toList := fun f =>
    Recorded.filterMap_log_note f _ _ _
  refine ⟨((reader.readLine answers).1, (reader.readLine answers).2.1), sh', rfl,
    ⟨⟨?_, ?_, h.consistent.mode, ?_, ?_⟩, h.started, h.counted⟩⟩
  · rw [hlog, hread.2]
    exact (LineReader.afterAll_append _ _ _).trans (by rw [h.consistent.reader])
  · have hlines := h.consistent.lines
    rw [List.append_nil] at hlines
    rw [hlog, hlog, hread.1]
    simp only [Event.offered?, Event.handed?, Option.toList_some, Option.toList_none,
      List.append_nil, LineReader.outcomes_append, List.filterMap_append, hlines,
      h.consistent.reader]
    cases hline : (reader.readLine offered).1.line? <;> simp [hline]
  · rw [hlog]
    simpa [Event.announcement?] using h.consistent.announced
  · exact heeds_append h.consistent.heeds (by simp [Event.handed?])

/-- A line that is owed is handed on; if the poll has asked for all stop signals, it is heeded as
their number says. -/
theorem inStep_hand {line : Text} (h : InStep start [line] reader sh)
    (hpolled : sh.signals.stopsTaken = sh.signals.stops) :
    ∃ sh', noteLine line sh = .ok () sh' ∧ InStep start [] reader sh' := by
  let event := Event.handed line (!sh.interpreter.foregroundOnly) sh.signals.stops
  let sh' : Shell (Recorded σ) := { sh with world := sh.world.note event sh.world.world }
  have hlog : ∀ {α : Type} (f : Event → Option α),
      sh'.world.log.filterMap f = sh.world.log.filterMap f ++ (f event).toList := fun f =>
    Recorded.filterMap_log_note f _ _ _
  have hmode : (!sh.interpreter.foregroundOnly) =
      decide ((sh.signals.stops - start) % 2 = 0) := by
    rw [h.consistent.mode, hpolled, ← decide_not]
    exact decide_eq_decide.mpr (by omega)
  have hannounced := h.consistent.announced
  refine ⟨sh', rfl, ⟨?_, ?_, h.consistent.mode, ?_, ?_⟩, h.started, h.counted⟩
  · rw [hlog]
    simpa [event, Event.offered?] using h.consistent.reader
  · rw [hlog, hlog]
    simpa [event, Event.offered?, Event.handed?] using h.consistent.lines
  · rw [hlog]
    simpa [event, Event.announcement?] using hannounced
  · rw [hpolled] at hannounced
    exact heeds_handed h.consistent.heeds hmode hannounced

end Steps

/-! ## Rounds -/

section Rounds

variable {start : Nat} (H : Host σ) {prompt : Option String}

/-- No line is lost in the end: those that were read were handed on, unless a signal has killed the
shell in between. -/
def Settled (start : Nat) (result : EStateM.Result Stop (Shell (Recorded σ)) Unit) : Prop :=
  ∃ owed reader, InStep start owed reader (left result) ∧
    (owed = [] ∨ ∃ number sh, result = .error (.ended (.killed number)) sh)

/-- What comes before a line is read leaves the shell in step. -/
theorem inStep_prepare (hprompt : ∀ text ∈ prompt, text.toList.head? ≠ some 'E')
    (reader : LineReader) :
    (Frame.ofInvariant (InStep start [] reader)).Bounds (prepare H.recorded prompt) := by
  let frame : Frame (Recorded σ) := .ofInvariant (InStep start [] reader)
  have hsteady : ∀ {α : Type} {action : Act (Recorded σ) α}, steady.Bounds action →
      frame.Bounds action := fun h sh hsh => inStep_of_steady hsh (h sh)
  have hpoll : frame.Bounds (pollSignals H.recorded) := by
    intro sh hsh
    obtain ⟨sh', hrun, hafter, -⟩ := inStep_poll H hsh
    rw [hrun]
    exact hafter
  have hreset : steady.Bounds (modify fun sh : Shell (Recorded σ) =>
      { sh with interpreter := { sh.interpreter with signalCaught := false } }) :=
    steady.bounds_modify fun _ => steady_of_same rfl rfl rfl
  refine frame.bounds_bind (hsteady (steady_takeSignals H)) fun _ => ?_
  refine frame.bounds_bind hpoll fun _ => ?_
  refine frame.bounds_bind (hsteady hreset) fun _ => ?_
  refine frame.bounds_bind (hsteady (steady_notify H)) fun _ => ?_
  cases prompt with
  | none => exact hsteady (steady_takeSignals H)
  | some text =>
      exact frame.bounds_bind (hsteady (steady_print H (hprompt text rfl))) fun _ =>
        hsteady (steady_takeSignals H)

/-- An action that leaves the shell in step leaves nothing unsettled. -/
theorem settled_of_inStep {reader : LineReader}
    {result : EStateM.Result Stop (Shell (Recorded σ)) Unit}
    (h : InStep start [] reader (left result)) : Settled start result :=
  ⟨[], reader, h, .inl rfl⟩

/-- A line that is owed is handed on, and executed, and the shell is in step again. -/
theorem inStep_line {line : Text} {reader : LineReader} {sh : Shell (Recorded σ)}
    (h : InStep start [line] reader sh) (hpolled : sh.signals.stopsTaken = sh.signals.stops) :
    InStep start [] reader (left (reporting H.recorded (executeNoted H line) sh)) := by
  obtain ⟨sh', hnote, hhanded⟩ := inStep_hand h hpolled
  rw [executeNoted, reporting_bind_of_ok H.recorded hnote]
  exact inStep_of_steady hhanded (steady_reporting H (steady_execute H line) sh')

/-- An attempt to read a line leaves the shell in step, with the line owed if there is one; or the
shell ends, and then nothing is unsettled. -/
theorem inStep_attempt (input : InputStream σ)
    (hprompt : ∀ text ∈ prompt, text.toList.head? ≠ some 'E') {reader : LineReader}
    {sh : Shell (Recorded σ)} (h : InStep start [] reader sh) :
    (∃ read sh', attempt H.recorded input.recorded prompt reader sh = .ok read sh' ∧
      InStep start read.1.line?.toList read.2 sh') ∨
    ∃ stop sh', attempt H.recorded input.recorded prompt reader sh = .error stop sh' ∧
      Settled start (.error stop sh') := by
  have hprepared := inStep_prepare H hprompt reader sh h
  rcases hprepare : prepare H.recorded prompt sh with ⟨⟨⟩, sh₁⟩ | ⟨stop, sh₁⟩
  · rw [hprepare, left_ok] at hprepared
    obtain ⟨read, sh₂, hread, hin⟩ := inStep_readLine input hprepared
    have htaken := inStep_of_steady hin (steady_takeSignals H sh₂)
    rcases htake : takeSignals H.recorded sh₂ with ⟨⟨⟩, sh₃⟩ | ⟨stop, sh₃⟩
    · rw [htake, left_ok] at htaken
      refine .inl ⟨read, sh₃, ?_, htaken⟩
      rw [attempt, bind_of_ok hprepare, bind_of_ok hread, bind_of_ok htake]
      rfl
    · rw [htake, left_error] at htaken
      obtain ⟨number, rfl⟩ := onlyKills_takeSignals H.recorded sh₂ stop sh₃ htake
      refine .inr ⟨_, sh₃, ?_, _, _, htaken, .inr ⟨number, sh₃, rfl⟩⟩
      rw [attempt, bind_of_ok hprepare, bind_of_ok hread, bind_of_error htake]
  · rw [hprepare, left_error] at hprepared
    refine .inr ⟨stop, sh₁, ?_, settled_of_inStep hprepared⟩
    rw [attempt, bind_of_error hprepare]

/-- **What any number of rounds preserves**: nothing is unsettled in the end. -/
theorem settled_serve (input : InputStream σ)
    (hprompt : ∀ text ∈ prompt, text.toList.head? ≠ some 'E') (fuel : Nat) {reader : LineReader}
    {sh : Shell (Recorded σ)} (h : InStep start [] reader sh) :
    Settled start
      (serve H.recorded input.recorded prompt (executeNoted H) fuel reader sh) := by
  induction fuel generalizing reader sh with
  | zero => exact settled_of_inStep h
  | succ fuel ih =>
      rw [serve_succ]
      rcases inStep_attempt H input hprompt h with
        ⟨⟨outcome, reader'⟩, sh₁, hattempt, hread⟩ | ⟨stop, sh₁, hattempt, hsettled⟩
      · rw [bind_of_ok hattempt]
        cases outcome with
        | failed errno => exact settled_of_inStep hread
        | endOfInput =>
            obtain ⟨sh₂, hpoll, hpolled, -⟩ := inStep_poll H hread
            rw [answerOutcome, hpoll]
            exact settled_of_inStep hpolled
        | interrupted =>
            obtain ⟨sh₂, hpoll, hpolled, -⟩ := inStep_poll H hread
            have hget : (get : Act (Recorded σ) _) sh₂ = .ok sh₂ sh₂ := rfl
            rw [answerOutcome, bind_of_ok hpoll, bind_of_ok hget]
            split
            · have hnewline : "\n".toList.head? ≠ some 'E' := by decide
              exact ih (inStep_of_steady hpolled (steady_print H hnewline sh₂))
            · exact ih hpolled
        | line text =>
            obtain ⟨sh₂, hpoll, hpolled, hall⟩ := inStep_poll H hread
            have hexecuted := inStep_line H hpolled hall
            rw [answerOutcome, bind_of_ok hpoll]
            rcases hreport : reporting H.recorded (executeNoted H text) sh₂ with
              ⟨⟨⟩, sh₃⟩ | ⟨stop, sh₃⟩
            · rw [hreport, left_ok] at hexecuted
              rw [bind_of_ok hreport]
              exact ih hexecuted
            · rw [hreport, left_error] at hexecuted
              rw [bind_of_error hreport]
              exact settled_of_inStep hexecuted
      · rw [bind_of_error hattempt]
        exact hsettled

end Rounds

/-! ## The result -/

/-- A shell that is killed in the recording is killed without it. -/
theorem forgetResult_ne_killed {α : Type} {result : EStateM.Result Stop (Shell (Recorded σ)) α}
    {F Q : SignalState → Prop} (h : Fine F Q (forgetResult result)) (number : Int)
    (sh : Shell (Recorded σ)) : result ≠ .error (.ended (.killed number)) sh := by
  rintro rfl
  exact h number rfl

/-- A shell serves a stream from its first line on, and what it does is recorded. -/
def recordedRun (H : Host σ) (input : InputStream σ) (prompted : Bool) (fuel : Nat)
    (sh : Shell σ) : EStateM.Result Stop (Shell (Recorded σ)) Unit :=
  serve H.recorded input.recorded (if prompted then some promptText else none) (executeNoted H)
    fuel {} (recorded sh)

/-- What was recorded. -/
def recordedLog (H : Host σ) (input : InputStream σ) (prompted : Bool) (fuel : Nat)
    (sh : Shell σ) : List Event :=
  (left (recordedRun H input prompted fuel sh)).world.log

/-- The lines that the reader returned, given what the stream offered it. -/
def linesRead (log : List Event) : List Text :=
  (LineReader.outcomes {} (log.filterMap Event.offered?)).filterMap ReadOutcome.line?

/-- What was recorded of a run is a session in which the stream is served. -/
theorem exists_turns_of_recordedRun (H : Host σ) (input : InputStream σ) (prompted : Bool)
    (fuel : Nat) (sh : Shell σ) : ∃ turns : List (Turn σ),
      (∀ turn ∈ turns, turn.Serves input) ∧
      play H turns (recorded sh) = recordedRun H input prompted fuel sh := by
  have hplays : Plays H input (serve H.recorded input.recorded
      (if prompted then some promptText else none) (executeNoted H) fuel {}) :=
    plays_serve H (cut?_promptText prompted) fuel {}
  obtain ⟨turns, hserves, hplay⟩ := hplays (recorded sh)
  refine ⟨turns, hserves, hplay.trans ?_⟩
  rw [recordedRun]
  generalize serve H.recorded input.recorded (if prompted then some promptText else none)
    (executeNoted H) fuel {} (recorded sh) = result
  cases result <;> rfl

/-- The same line is read twice, and asks for the background.  One stop signal has come before the
first time, and another one comes before the second. -/
def markedLines : SampleWorld where
  input := [.data [0x73, 0x68, 0x20, 0x26, 0x0A, 0x73, 0x68, 0x20], .data [0x26, 0x0A]]
  stops := [1, 0, 0, 0, 0, 0, 0, 0, 0, 1]

/-- The log of these lines. -/
def markedLog : List Event :=
  recordedLog (sampleHost [.exited ⟨7⟩ 0]) sampleInput false 3 (sampleShell markedLines)

end Shell

end Conch
