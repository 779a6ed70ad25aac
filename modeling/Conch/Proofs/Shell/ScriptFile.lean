import Conch.Proofs.Delivery
import Conch.Proofs.Shell.Simulation
import Conch.Proofs.Shell.NoSignals

/-!
# Running a script is running its lines

A shell that executes a file reads it in pieces as large as they come, keeps what it has read ahead,
and before each line looks for signals and for background jobs that have ended.  If no signal comes
and nobody else has to do with the file, all this amounts to the fold `executeLines` over the lines
of its bytes.

The fold does not read anything, so it is run on another host: one on which everything is as on the
first, except that there is no open file.  A `ScriptFile` says that two worlds are related in this
way, and stay so whatever the shell does.

* `readLine_expects`: what one attempt to read a line takes off the lines to come;
* `serve_beside`: what one round preserves, and so what all rounds come to;
* `script_is_its_lines`: the result for a file.
-/

namespace Conch

namespace LineReader

/-! ## Streams that are not interrupted -/

/-- The answers of a stream that holds these bytes and is not interrupted.  They may break off where
the stream ends. -/
def Holds (answers : List ReadAnswer) (bytes : List UInt8) : Prop :=
  ∃ arrivals : List Arrival, Arrival.signals arrivals = 0 ∧
    arrivals.flatMap Arrival.bytes = bytes ∧
    (answers = arrivals.map Arrival.answer ∨ ∃ later, answers = Arrival.answers arrivals later)

/-- The first bytes of a nonempty file are a chunk. -/
theorem exists_chunk {bytes : List UInt8} (h : bytes ≠ []) :
    ∃ a : Arrival, a.answer = .data (bytes.take ReadAnswer.chunkSize) ∧
      a.bytes = bytes.take ReadAnswer.chunkSize ∧
      ∀ arrivals, Arrival.signals (a :: arrivals) = Arrival.signals arrivals := by
  have hnonempty : bytes.take ReadAnswer.chunkSize ≠ [] := by
    simpa [ReadAnswer.chunkSize] using h
  have hbounded : (bytes.take ReadAnswer.chunkSize).length ≤ ReadAnswer.chunkSize :=
    List.length_take_le _ _
  exact ⟨.chunk _ hnonempty hbounded, rfl, rfl, fun _ => Arrival.signals_chunk _ _ _ _⟩

/-- Bytes that are cut into reads come without interruptions, each read with a byte at least, and
are the bytes when put together. -/
theorem holds_chunksAux {fuel : Nat} {bytes : List UInt8}
    (hfuel : bytes.length ≤ fuel * ReadAnswer.chunkSize) :
    ∃ arrivals : List Arrival, Arrival.signals arrivals = 0 ∧
      arrivals.flatMap Arrival.bytes = bytes ∧
      ReadAnswer.chunksAux fuel bytes = arrivals.map Arrival.answer := by
  induction fuel generalizing bytes with
  | zero =>
      obtain rfl := List.eq_nil_of_length_eq_zero (by omega : bytes.length = 0)
      exact ⟨[], rfl, rfl, rfl⟩
  | succ fuel ih =>
      by_cases hempty : bytes = []
      · subst hempty
        exact ⟨[], rfl, rfl, rfl⟩
      · have hrest : (bytes.drop ReadAnswer.chunkSize).length ≤ fuel * ReadAnswer.chunkSize := by
          rw [List.length_drop]
          rw [Nat.succ_mul] at hfuel
          omega
        obtain ⟨a, hanswer, hfirst, hsignals⟩ := exists_chunk hempty
        obtain ⟨arrivals, hcalm, hbytes, hanswers⟩ := ih hrest
        refine ⟨a :: arrivals, (hsignals arrivals).trans hcalm, ?_, ?_⟩
        · rw [List.flatMap_cons, hfirst, hbytes, List.take_append_drop]
        · rw [ReadAnswer.chunksAux, hanswers, List.map_cons, hanswer]
          exact hempty

/-- Bytes that are all there are read in chunks without interruptions, and the chunks bring just
these bytes. -/
theorem holds_chunks (bytes : List UInt8) : Holds (ReadAnswer.chunks bytes) bytes := by
  have hfuel : bytes.length ≤ (bytes.length / ReadAnswer.chunkSize + 1) * ReadAnswer.chunkSize := by
    simp only [ReadAnswer.chunkSize]
    omega
  obtain ⟨arrivals, hcalm, hbytes, hanswers⟩ := holds_chunksAux hfuel
  exact ⟨arrivals, hcalm, hbytes, .inl hanswers⟩

/-- Without interruptions all bytes count, and they join what was held before. -/
theorem foldl_keep_of_calm {arrivals : List Arrival} (h : Arrival.signals arrivals = 0)
    (before : List UInt8) :
    arrivals.foldl Arrival.keep before = before ++ arrivals.flatMap Arrival.bytes := by
  induction arrivals generalizing before with
  | nil => simp
  | cons a arrivals ih =>
      cases a with
      | chunk bytes nonempty bounded =>
          rw [Arrival.signals_chunk] at h
          rw [List.foldl_cons, ih h]
          simp [Arrival.keep, Arrival.bytes]
      | signal => simp at h

/-- Where the answers break off the stream ends: it makes no difference whether that is told. -/
theorem readLine_append_end (r : LineReader) (answers : List ReadAnswer) :
    ∃ rest, r.readLine (answers ++ [.data []]) =
        ((r.readLine answers).1, (r.readLine answers).2.1, rest) ∧
      (rest = (r.readLine answers).2.2 ++ [.data []] ∨ rest = (r.readLine answers).2.2) := by
  induction answers generalizing r with
  | nil =>
      unfold readLine
      cases r.takeLine with
      | some taken => exact ⟨_, rfl, .inl rfl⟩
      | none =>
          cases r.ended with
          | true => exact ⟨_, rfl, .inl rfl⟩
          | false => exact ⟨_, rfl, .inr rfl⟩
  | cons answer answers ih =>
      rw [List.cons_append]
      unfold readLine
      cases r.takeLine with
      | some taken => exact ⟨_, rfl, .inl rfl⟩
      | none =>
          cases r.ended with
          | true => exact ⟨_, rfl, .inl rfl⟩
          | false =>
              rcases answer with (_ | ⟨b, bytes⟩) | _ | errno
              · exact ⟨_, rfl, .inl rfl⟩
              · exact ih _
              · exact ⟨_, rfl, .inl rfl⟩
              · exact ⟨_, rfl, .inl rfl⟩

/-- The answers that were not asked for are the last ones. -/
theorem readLine_suffix (r : LineReader) (answers : List ReadAnswer) :
    (r.readLine answers).2.2 <:+ answers := by
  induction answers generalizing r with
  | nil =>
      unfold readLine
      cases r.takeLine with
      | some taken => exact List.suffix_refl _
      | none => cases r.ended <;> exact List.suffix_refl _
  | cons answer answers ih =>
      unfold readLine
      cases r.takeLine with
      | some taken => exact List.suffix_refl _
      | none =>
          cases r.ended with
          | true => exact List.suffix_refl _
          | false =>
              rcases answer with (_ | ⟨b, bytes⟩) | _ | errno
              · exact List.suffix_cons _ _
              · exact (ih _).trans (List.suffix_cons _ _)
              · exact List.suffix_cons _ _
              · exact List.suffix_cons _ _

/-- A reader with these answers before it still has these pieces to return, and will not be
interrupted.  The answers tell of the end, or it has been seen, or they break off where the stream
ends. -/
inductive Expects (r : LineReader) (answers : List ReadAnswer) (parts : List (List UInt8)) :
    Prop where
  | told {later : List ReadAnswer} (h : Ahead later r answers parts 0)
  | untold (h : Ahead [] r (answers ++ [.data []]) parts 0)

/-- A fresh reader has the pieces of the bytes to return. -/
theorem expects_of_holds {answers : List ReadAnswer} {bytes : List UInt8}
    (h : Holds answers bytes) : Expects {} answers (pieces bytes) := by
  obtain ⟨arrivals, hcalm, rfl, hanswers⟩ := h
  have hahead : ∀ later, Ahead later {} (Arrival.answers arrivals later)
      (pieces (arrivals.flatMap Arrival.bytes)) 0 := by
    intro later
    have hreading : Ahead later {} (Arrival.answers arrivals later)
        (pieces (arrivals.foldl Arrival.keep [])) (Arrival.signals arrivals) :=
      .reading arrivals rfl
    rwa [foldl_keep_of_calm hcalm, hcalm] at hreading
  rcases hanswers with rfl | ⟨later, rfl⟩
  · exact .untold (hahead [])
  · exact .told (hahead later)

/-- An attempt to read a line returns the next piece, or sees the end if there is none. -/
theorem readLine_expects {r : LineReader} {answers : List ReadAnswer} {parts : List (List UInt8)}
    (h : Expects r answers parts) :
    (parts = [] ∧ (r.readLine answers).1 = .endOfInput) ∨
    ∃ part more, parts = part :: more ∧ (r.readLine answers).1 = .line (lineText part) ∧
      Expects (r.readLine answers).2.1 (r.readLine answers).2.2 more := by
  -- An attempt that is not interrupted and does not fail, given what is left after it.
  have hstep : ∀ {later outcome r' rest}, Advances later parts 0 (outcome, r', rest) →
      (parts = [] ∧ outcome = .endOfInput) ∨
      ∃ part more, parts = part :: more ∧ outcome = .line (lineText part) ∧
        Ahead later r' rest more 0 := by
    intro later outcome r' rest hadvances
    cases outcome with
    | line text =>
        obtain ⟨part, more, hparts, rfl, hahead⟩ := hadvances
        exact .inr ⟨part, more, hparts, rfl, hahead⟩
    | interrupted =>
        obtain ⟨m, hm, _⟩ := hadvances
        exact nomatch hm
    | endOfInput => exact .inl ⟨hadvances.1, rfl⟩
    | failed errno => exact hadvances.elim
  cases h with
  | told hahead =>
      rcases hstep (readLine_ahead hahead) with hend | ⟨part, more, hparts, hline, hmore⟩
      · exact .inl hend
      · exact .inr ⟨part, more, hparts, hline, .told hmore⟩
  | untold hahead =>
      obtain ⟨rest, hread, hrest⟩ := readLine_append_end r answers
      have hadvances := readLine_ahead hahead
      rw [hread] at hadvances
      rcases hstep hadvances with hend | ⟨part, more, hparts, hline, hmore⟩
      · exact .inl hend
      · refine .inr ⟨part, more, hparts, hline, ?_⟩
        rcases hrest with rfl | rfl
        · exact .untold hmore
        · exact .told hmore

/-- There are no more lines than bytes, since each has one byte at least or ends in a newline. -/
theorem length_pieces_le (bytes : List UInt8) : (pieces bytes).length ≤ bytes.length := by
  induction hsize : bytes.length using Nat.strong_induction_on generalizing bytes with
  | h size ih =>
      subst hsize
      cases hcut : cutLine bytes with
      | none =>
          have hnot := cutLine_eq_none_iff.mp hcut
          by_cases hempty : bytes = []
          · simp [hempty]
          · rw [pieces_of_notMem hnot hempty]
            exact List.length_pos_of_ne_nil hempty
      | some parts =>
          obtain ⟨line, rest⟩ := parts
          obtain ⟨hline, rfl⟩ := cutLine_eq_some hcut
          have hshorter : rest.length < (line ++ newline :: rest).length := by
            simp only [List.length_append, List.length_cons]
            omega
          have hrest := ih _ hshorter rest rfl
          rw [pieces_append hline]
          simp only [List.length_cons, List.length_append]
          omega

end LineReader

namespace Shell

variable {σ τ : Type}

/-! ## The fold -/

/-- Execute lines one after the other.  Before each of them, and after the last, the user is told
about the background jobs that have ended.  An error that can be mended is reported, and any other
error ends it all. -/
def executeLines (H : Host σ) : List Text → Act σ Unit
  | [], sh => .ok () (notified H sh)
  | line :: lines, sh =>
    match execute H line (notified H sh) with
    | .ok () sh => executeLines H lines sh
    | .error (.failed e) sh =>
      if e.isRecoverable then
        executeLines H lines
          { sh with world := H.printError ("tinysh: " ++ e.message ++ "\n") sh.world }
      else .error (.failed e) sh
    | .error (.ended ending) sh => .error (.ended ending) sh

/-- To execute lines is to execute the first one, with its error reported, and then the others. -/
theorem executeLines_cons (H : Host σ) (line : Text) (lines : List Text) (sh : Shell σ) :
    executeLines H (line :: lines) sh =
      (reporting H (execute H line) >>= fun _ => executeLines H lines) (notified H sh) := by
  rw [executeLines]
  rcases hrun : execute H line (notified H sh) with ⟨⟨⟩, sh'⟩ | ⟨e | ending, sh'⟩
  · rw [bind_of_ok (reporting_of_ok H hrun)]
  · have hreported := reporting_of_failed H hrun
    have htext : "tinysh: " ++ e.message ++ "\n" = s!"{reportName}: {e.message}\n" := rfl
    cases hrecoverable : e.isRecoverable with
    | true =>
        rw [if_pos hrecoverable] at hreported
        simp only [hrecoverable, if_true, htext]
        rw [bind_of_ok hreported]
    | false =>
        rw [if_neg (by simp [hrecoverable])] at hreported
        simp only [hrecoverable, Bool.false_eq_true, if_false]
        exact (bind_of_error hreported).symm
  · have hreported : reporting H (execute H line) (notified H sh) = .error (.ended ending) sh' :=
      tryCatch_of_error hrun
    exact (bind_of_error hreported).symm

/-! ## The file -/

/-- A file with these bytes, opened on `H` in the world `w`.  Everything else is as it is on `K` in
the world `v`, and stays so whatever is done; and only the shell, by reading, moves the file on.

The two worlds are `Beside` each other if they are the same but for the file, whose reads will get
these answers: no service but the reads has to do with the file, and a read takes its answer away,
and that is all.  The answers at first bring the bytes, and the number of reads allows for all of
them. -/
structure ScriptFile (H : Host σ) (K : Host τ) (path : Text) (bytes : List UInt8) (w : σ)
    (v : τ) where
  input : InputStream σ
  opened : σ
  opens : H.openLines path w = .ok (input, opened)
  Beside : List ReadAnswer → σ → τ → Prop
  alike : ∀ answers, H.Alike (Beside answers) K
  answers : ∀ {answers w v}, Beside answers w v → input.answers w = answers
  advance : ∀ {answers w v} n, Beside answers w v →
    Beside (answers.drop n) (input.advance n w) v
  offered : List ReadAnswer
  holds : LineReader.Holds offered bytes
  beside : Beside offered opened v
  bounded : bytes.length ≤ input.bound opened

variable {H : Host σ} {K : Host τ} {α : Type}

/-- An idle shell is idle in any world, as this is about its signals and its memory only. -/
theorem idle_moved {sh : Shell σ} (h : Idle sh) (v : τ) : Idle (sh.moved v) :=
  ⟨h.caught, h.stops, h.forgotten, h.due⟩

/-- A reader that holds a line asks for nothing; otherwise the reads are those that the attempt has
used. -/
theorem readLine_eq (input : InputStream σ) (reader : LineReader) (sh : Shell σ) :
    readLine input reader sh =
      let offered := if reader.takeLine.isSome then [] else input.answers sh.world
      .ok ((reader.readLine offered).1, (reader.readLine offered).2.1) { sh with
        world := input.advance (offered.length - (reader.readLine offered).2.2.length) sh.world } :=
  rfl

namespace ScriptFile

variable {path : Text} {bytes : List UInt8} {start : σ} {aside : τ}
  (S : ScriptFile H K path bytes start aside)

/-- The two worlds are the same but for the file. -/
def Apart (w : σ) (v : τ) : Prop :=
  ∃ answers, S.Beside answers w v

/-- To read a line of the file returns what the reader makes of the answers, and changes nothing
else but how far the file has been read. -/
theorem readLine_beside {answers : List ReadAnswer} {sh : Shell σ} {v : τ}
    (h : S.Beside answers sh.world v) (reader : LineReader) :
    ∃ w, readLine S.input reader sh =
        .ok ((reader.readLine answers).1, (reader.readLine answers).2.1) { sh with world := w } ∧
      S.Beside (reader.readLine answers).2.2 w v := by
  rw [readLine_eq, S.answers h]
  cases htake : reader.takeLine with
  | some taken =>
      -- The line is there already, so nothing is asked for.
      have hread : ∀ answers, reader.readLine answers = (.line taken.1, taken.2, answers) := by
        intro answers
        unfold LineReader.readLine
        rw [htake]
      simp only [Option.isSome_some, if_true, hread]
      exact ⟨_, rfl, S.advance 0 h⟩
  | none =>
      have hrest := List.suffix_iff_eq_drop.mp (LineReader.readLine_suffix reader answers)
      have hafter := S.advance (answers.length - (reader.readLine answers).2.2.length) h
      rw [← hrest] at hafter
      exact ⟨_, rfl, hafter⟩

section Rounds

variable (hsilent : K.SendsNoSignal)

include hsilent

/-- An attempt to read a line, with all that happens before and right after it. -/
theorem attempt_beside {answers : List ReadAnswer} {sh : Shell σ} {v : τ} {idle : Shell τ}
    (h : S.Beside answers sh.world v) (hheed : heed K (sh.moved v) = .ok () idle)
    (reader : LineReader) :
    ∃ sh' v', attempt H S.input none reader sh =
        .ok ((reader.readLine answers).1, (reader.readLine answers).2.1) sh' ∧
      sh'.moved v' = notified K idle ∧ S.Beside (reader.readLine answers).2.2 sh'.world v' := by
  have hprepare := simulates_prepare (S.alike answers) none sh v h
  rw [prepare_of_silent hsilent hheed] at hprepare
  obtain ⟨ready, v', hready, hsame, hbeside⟩ := hprepare.of_ok
  obtain ⟨w, hread, hrest⟩ := S.readLine_beside hbeside reader
  have htake := simulates_takeSignals (S.alike _) { ready with world := w } v' hrest
  rw [takeSignals_of_silent hsilent] at htake
  obtain ⟨after, v'', hafter, hsame', hbeside'⟩ := htake.of_ok
  refine ⟨after, v'', ?_, hsame'.trans hsame, hbeside'⟩
  rw [attempt, bind_of_ok hready, bind_of_ok hread, bind_of_ok hafter]
  rfl

/-- After the attempt the shell looks for signals, and finds none. -/
theorem polled_beside {answers : List ReadAnswer} {sh : Shell σ} {v : τ} {idle : Shell τ}
    (h : S.Beside answers sh.world v) (hheed : heed K (sh.moved v) = .ok () idle)
    (hidle : Idle idle) (reader : LineReader) :
    ∃ mid sh' v', attempt H S.input none reader sh =
        .ok ((reader.readLine answers).1, (reader.readLine answers).2.1) mid ∧
      pollSignals H mid = .ok () sh' ∧ sh'.moved v' = notified K idle ∧
      S.Beside (reader.readLine answers).2.2 sh'.world v' := by
  obtain ⟨mid, v', hattempt, hsame, hbeside⟩ := S.attempt_beside hsilent h hheed reader
  have hpoll := simulates_pollSignals (S.alike _) mid v' hbeside
  rw [hsame, pollSignals_of_idle (idle_notified hidle)] at hpoll
  obtain ⟨sh', v'', hpolled, hsame', hbeside'⟩ := hpoll.of_ok
  exact ⟨mid, sh', v'', hattempt, hpolled, hsame', hbeside'⟩

/-- **To serve the file is to execute its lines**, from wherever the reader has come. -/
theorem serve_beside {parts : List (List UInt8)} {reader : LineReader}
    {answers : List ReadAnswer} {sh : Shell σ} {v : τ} {idle : Shell τ} {fuel : Nat}
    (hexpects : LineReader.Expects reader answers parts) (hfuel : parts.length < fuel)
    (h : S.Beside answers sh.world v) (hheed : heed K (sh.moved v) = .ok () idle)
    (hidle : Idle idle) :
    SameResult S.Apart (serve H S.input none (execute H) fuel reader sh)
      (executeLines K (parts.map LineReader.lineText) idle) := by
  -- By induction on the lines to come; each round takes one of them off.
  induction parts generalizing reader answers sh v idle fuel with
  | nil =>
      obtain ⟨fuel, rfl⟩ := Nat.exists_eq_add_of_lt hfuel
      obtain ⟨mid, sh', v', hattempt, hpolled, hsame, hbeside⟩ :=
        S.polled_beside hsilent h hheed hidle reader
      rcases LineReader.readLine_expects hexpects with ⟨-, hend⟩ | ⟨part, more, hparts, _⟩
      · rw [hend] at hattempt
        rw [serve_succ, bind_of_ok hattempt, List.map_nil, executeLines, ← hsame]
        dsimp only [answerOutcome]
        rw [hpolled]
        exact .ok () ⟨_, hbeside⟩
      · exact nomatch hparts
  | cons part parts ih =>
      obtain ⟨fuel, rfl⟩ := Nat.exists_eq_add_of_lt hfuel
      obtain ⟨mid, sh', v', hattempt, hpolled, hsame, hbeside⟩ :=
        S.polled_beside hsilent h hheed hidle reader
      rcases LineReader.readLine_expects hexpects with ⟨hparts, _⟩ | ⟨_, _, hparts, hline, hmore⟩
      · exact nomatch hparts
      · obtain ⟨rfl, rfl⟩ := List.cons.inj hparts
        rw [hline] at hattempt
        have hreport := simulates_reporting (S.alike _)
          (simulates_execute (S.alike _) (LineReader.lineText part)) sh' v' hbeside
        rw [hsame] at hreport
        rw [serve_succ, bind_of_ok hattempt, List.map_cons, executeLines_cons]
        dsimp only [answerOutcome]
        rw [bind_of_ok hpolled]
        rcases hrun : reporting K (execute K (LineReader.lineText part)) (notified K idle) with
          ⟨⟨⟩, next⟩ | ⟨stop, next⟩
        · rw [hrun] at hreport
          obtain ⟨done, v'', hdone, hsame', hbeside'⟩ := hreport.of_ok
          have hnext : Idle next := idle_reporting hsilent (idle_notified hidle) hrun
          have hready : heed K (done.moved v'') = .ok () next := by
            rw [hsame']
            exact heed_of_idle hnext
          rw [bind_of_ok hdone, bind_of_ok hrun]
          exact ih hmore (by simp only [List.length_cons] at *; omega) hbeside' hready hnext
        · rw [hrun] at hreport
          obtain ⟨done, v'', hdone, rfl, hbeside'⟩ := hreport.of_error
          rw [bind_of_error hdone, bind_of_error hrun]
          exact .error stop ⟨_, hbeside'⟩

end Rounds

/-- **To execute a file is to execute its lines**: the shell opens it, acts on what it has noted,
and then does in the one world what it does in the other. -/
theorem executeFile_beside {sh : Shell σ} {v : τ} {idle : Shell τ}
    (S : ScriptFile H K path bytes sh.world v) (hsilent : K.SendsNoSignal)
    (hheed : heed K (sh.moved v) = .ok () idle) (hidle : Idle idle) :
    SameResult S.Apart (executeFile H path sh)
      (executeLines K (LineReader.linesOf bytes) idle) := by
  have hrun : executeFile H path sh = serve H S.input none (execute H)
      (S.input.bound S.opened + 1) {} { sh with world := S.opened } := by
    have hget : (get : Act σ (Shell σ)) sh = .ok sh sh := rfl
    rw [executeFile, bind_of_ok hget, S.opens]
    rfl
  have hlines : LineReader.linesOf bytes = (LineReader.pieces bytes).map LineReader.lineText :=
    List.map_congr_left fun piece _ => (LineReader.lineText_eq piece).symm
  have hfuel : (LineReader.pieces bytes).length < S.input.bound S.opened + 1 :=
    Nat.lt_succ_of_le ((LineReader.length_pieces_le bytes).trans S.bounded)
  rw [hrun, hlines]
  exact S.serve_beside hsilent (LineReader.expects_of_holds S.holds) hfuel S.beside hheed hidle

end ScriptFile

/-- **Running a script is running its lines.** On a host on which no signal comes, to execute a file
is to act on the signals that have been noted before, and to execute the lines of its bytes: the
result is the same, the shell is the same, and so is the world but for the file.  How the bytes are
cut into reads makes no difference.  If nothing has been noted there is nothing to act on. -/
theorem script_is_its_lines {path : Text} {bytes : List UInt8} {sh : Shell σ} {v : τ}
    (S : ScriptFile H K path bytes sh.world v) (hsilent : K.SendsNoSignal)
    (hdue : ∀ c, sh.signals.isDue c = false) :
    SameResult S.Apart (executeFile H path sh)
      ((heed K >>= fun _ => executeLines K (LineReader.linesOf bytes)) (sh.moved v)) ∧
    (Idle sh → SameResult S.Apart (executeFile H path sh)
      (executeLines K (LineReader.linesOf bytes) (sh.moved v))) := by
  constructor
  · obtain ⟨idle, hheed, hidle⟩ := heed_ok K (sh.moved v) hdue
    rw [bind_of_ok hheed]
    exact S.executeFile_beside hsilent hheed hidle
  · intro hidle
    have hmoved : Idle (sh.moved v) := idle_moved hidle v
    exact S.executeFile_beside hsilent (heed_of_idle hmoved) hmoved

end Shell

/-! ## A host with a file -/

variable {τ : Type}

/-- A stream that has nothing to do with the second part of the world. -/
def InputStream.beside {α : Type} (input : InputStream τ) : InputStream (τ × α) where
  answers w := input.answers w.1
  advance n w := (input.advance n w.1, w.2)
  bound w := input.bound w.1

/-- The file: reads get the answers that are left. -/
def fileBeside (τ : Type) : InputStream (τ × List ReadAnswer) where
  answers w := w.2
  advance n w := (w.1, w.2.drop n)
  bound w := (w.2.flatMap ReadAnswer.bytes).length

/-- A host with one more file, whose reads get these answers. -/
def Host.withFile (K : Host τ) (name : Text) (offered : List ReadAnswer) :
    Host (τ × List ReadAnswer) where
  print text w := (K.print text w.1, w.2)
  printError text w := (K.printError text w.1, w.2)
  arrivals w := ((K.arrivals w.1).1, (K.arrivals w.1).2, w.2)
  fork launch w := ((K.fork launch w.1).1, (K.fork launch w.1).2, w.2)
  wait pid w := ((K.wait pid w.1).1, (K.wait pid w.1).2, w.2)
  poll pid w := ((K.poll pid w.1).1, (K.poll pid w.1).2, w.2)
  terminate pid w := ((K.terminate pid w.1).1, (K.terminate pid w.1).2, w.2)
  terminateGroup w := (K.terminateGroup w.1, w.2)
  workingDirectory w := K.workingDirectory w.1
  home w := K.home w.1
  changeDirectory path w := (K.changeDirectory path w.1).map fun v => (v, w.2)
  exportDirectories previous current w := (K.exportDirectories previous current w.1, w.2)
  standardInput := K.standardInput.beside
  openLines path w :=
    if path = name then .ok (fileBeside τ, w.1, offered)
    else (K.openLines path w.1).map fun opened => (opened.1.beside, opened.2, w.2)
  openLog path w := (K.openLog path w.1).map fun v => (v, w.2)

/-- The host is as it was, but for the file. -/
theorem Host.alike_withFile (K : Host τ) (name : Text) (offered answers : List ReadAnswer) :
    (K.withFile name offered).Alike (fun w v => w = (v, answers)) K where
  print := by
    rintro text _ v rfl
    rfl
  printError := by
    rintro text _ v rfl
    rfl
  arrivals := by
    rintro _ v rfl
    exact ⟨rfl, rfl⟩
  fork := by
    rintro launch _ v rfl
    exact ⟨rfl, rfl⟩
  wait := by
    rintro pid _ v rfl
    exact ⟨rfl, rfl⟩
  poll := by
    rintro pid _ v rfl
    exact ⟨rfl, rfl⟩
  terminate := by
    rintro pid _ v rfl
    exact ⟨rfl, rfl⟩
  terminateGroup := by
    rintro _ v rfl
    rfl
  workingDirectory := by
    rintro _ v rfl
    rfl
  home := by
    rintro _ v rfl
    rfl
  changeDirectory := by
    rintro path _ v rfl
    have hbeside : (K.withFile name offered).changeDirectory path (v, answers) =
        (K.changeDirectory path v).map fun v => (v, answers) := rfl
    rw [hbeside]
    cases K.changeDirectory path v with
    | ok there => exact .ok rfl
    | error reason => exact .error reason
  exportDirectories := by
    rintro previous current _ v rfl
    rfl

namespace Shell

/-- Whatever the host, the file can be there. -/
def ScriptFile.onHost (K : Host τ) (name : Text) {offered : List ReadAnswer}
    {bytes : List UInt8} (holds : LineReader.Holds offered bytes) (v : τ) :
    ScriptFile (K.withFile name offered) K name bytes (v, []) v where
  input := fileBeside τ
  opened := (v, offered)
  opens := by simp [Host.withFile]
  Beside answers w v := w = (v, answers)
  alike := K.alike_withFile name offered
  answers := by
    rintro answers _ v rfl
    rfl
  advance := by
    rintro answers _ v n rfl
    rfl
  offered
  holds
  beside := rfl
  bounded := by
    obtain ⟨arrivals, -, rfl, hanswers⟩ := holds
    have hbytes : (arrivals.map Arrival.answer).flatMap ReadAnswer.bytes =
        arrivals.flatMap Arrival.bytes := by
      rw [List.flatMap_map]
      exact List.flatMap_congr fun a _ => by cases a <;> rfl
    rcases hanswers with rfl | ⟨later, rfl⟩
    · exact Nat.le_of_eq (congrArg List.length hbytes.symm)
    · have hall : (Arrival.answers arrivals later).flatMap ReadAnswer.bytes =
          arrivals.flatMap Arrival.bytes ++ (.data [] :: later).flatMap ReadAnswer.bytes := by
        rw [Arrival.answers, List.flatMap_append, hbytes]
      have hlength := congrArg List.length hall
      rw [List.length_append] at hlength
      exact (Nat.le_add_right _ _).trans_eq hlength.symm

/-- A script that asks for the status twice, with a carriage return at the end of its first line, is
read in three pieces of any size. -/
theorem script_is_its_lines_on_sample :
    let K : Host SampleWorld := { sampleHost [] with arrivals := fun world => ([], world) }
    let bytes := "status\r\nstatus".toUTF8.toList
    let offered := [.data (bytes.take 3), .data ((bytes.drop 3).take 7), .data (bytes.drop 10)]
    let sh : Shell (SampleWorld × List ReadAnswer) := fresh {} 1 {} ({}, [])
    K.SendsNoSignal ∧ (∀ c, sh.signals.isDue c = false) ∧ Idle sh ∧
    LineReader.linesOf bytes = [['s', 't', 'a', 't', 'u', 's'], ['s', 't', 'a', 't', 'u', 's']] ∧
    ∃ S : ScriptFile (K.withFile ['f'] offered) K ['f'] bytes sh.world {},
      SameResult S.Apart (executeFile (K.withFile ['f'] offered) ['f'] sh)
        (executeLines K (LineReader.linesOf bytes) (sh.moved {})) := by
  intro K bytes offered sh
  have hsilent : K.SendsNoSignal := fun _ => rfl
  have hdue : ∀ c, sh.signals.isDue c = false := fun c => by cases c <;> rfl
  have hidle : Idle sh := ⟨rfl, rfl, rfl, hdue⟩
  have hholds : LineReader.Holds offered bytes := by
    refine ⟨[.chunk (bytes.take 3) ?_ ?_, .chunk ((bytes.drop 3).take 7) ?_ ?_,
      .chunk (bytes.drop 10) ?_ ?_], rfl, ?_, .inl rfl⟩ <;> decide +kernel
  let S := ScriptFile.onHost K ['f'] hholds {}
  exact ⟨hsilent, hdue, hidle, by decide +kernel, S, (script_is_its_lines S hsilent hdue).2 hidle⟩

end Shell

end Conch
