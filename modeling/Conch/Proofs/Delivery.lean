import Conch.LineReader
import Mathlib.Data.List.DropRight

/-!
# Which lines a stream delivers

A stream that has not ended answers a read with some bytes or, if a signal comes first, with an
interruption; at last it answers with no bytes at all.  However the bytes are cut into answers,
and wherever the interruptions stand, the lines that a reader makes of them are those of one
sequence of bytes: `kept`, which is what was received less the partial lines that the
interruptions cost.

The invariant that carries the proof is `Ahead`: what the reader holds and what it has not asked
for yet are the bytes of the lines still to come.  A reader asks for more only when it holds no
newline (`cutLine_eq_none_iff`), so an interruption costs no complete line.

* `readLine_ahead`: what one attempt to read a line comes to, from any such state;
* `readLine_interrupted`: an interruption costs bytes without a newline, and nothing else;
* `lines_delivered_exactly`: what any number of attempts come to, from a fresh reader.
-/

namespace Conch

/-- What a read of a stream that has not ended comes to: bytes, at least one and at most as many as
were asked for, or a signal that arrived before any byte did. -/
inductive Arrival where
  | chunk (bytes : List UInt8) (nonempty : bytes ≠ [])
      (bounded : bytes.length ≤ ReadAnswer.chunkSize)
  | signal

namespace Arrival

/-- The answer that a read gets. -/
def answer : Arrival → ReadAnswer
  | chunk bytes _ _ => .data bytes
  | signal => .interrupted

/-- The bytes that a read brings. -/
def bytes : Arrival → List UInt8
  | chunk bytes _ _ => bytes
  | signal => []

/-- Does a signal cut the read short? -/
def isSignal : Arrival → Bool
  | chunk .. => false
  | signal => true

/-- How many reads are cut short by a signal. -/
def signals (arrivals : List Arrival) : Nat :=
  arrivals.countP isSignal

/-- The answers of a stream up to its end.  What would come `later` is never asked for. -/
def answers (arrivals : List Arrival) (later : List ReadAnswer) : List ReadAnswer :=
  arrivals.map answer ++ .data [] :: later

/-- The bytes that count after one more read: an interruption deletes those that were received after
the last newline. -/
def keep (before : List UInt8) : Arrival → List UInt8
  | chunk bytes _ _ => before ++ bytes
  | signal => before.rdropWhile (· != LineReader.newline)

@[simp] theorem answers_cons (a : Arrival) (arrivals : List Arrival) (later : List ReadAnswer) :
    answers (a :: arrivals) later = a.answer :: answers arrivals later := rfl

@[simp] theorem signals_chunk (bytes : List UInt8) (nonempty : bytes ≠ [])
    (bounded : bytes.length ≤ ReadAnswer.chunkSize) (arrivals : List Arrival) :
    signals (chunk bytes nonempty bounded :: arrivals) = signals arrivals := by
  simp [signals, isSignal]

@[simp] theorem signals_signal (arrivals : List Arrival) :
    signals (signal :: arrivals) = signals arrivals + 1 :=
  List.countP_cons_of_pos rfl

/-- The bytes of a stream that count in the end. -/
def kept (arrivals : List Arrival) : List UInt8 :=
  arrivals.foldl keep []

end Arrival

namespace LineReader

/-- The pieces between the newlines; nothing at all after the last newline is no piece. -/
def pieces (bytes : List UInt8) : List (List UInt8) :=
  let parts := bytes.splitOn newline
  if parts.getLast? = some [] then parts.dropLast else parts

/-- A piece without one carriage return at its end. -/
def withoutReturn (piece : List UInt8) : List UInt8 :=
  match piece.reverse with
  | [] => []
  | b :: front => if b = carriageReturn then front.reverse else piece

/-- The lines of a sequence of bytes. -/
def linesOf (bytes : List UInt8) : List Text :=
  (pieces bytes).map fun piece => Utf8.decodeLossy (withoutReturn piece)

/-- The outcomes of so many attempts to read a line. -/
def readLines : Nat → LineReader → List ReadAnswer → List ReadOutcome
  | 0, _, _ => []
  | n + 1, r, answers =>
    let (outcome, r, answers) := r.readLine answers
    outcome :: readLines n r answers

/-! ## Pieces and lines -/

/-- The text of a line is that of its piece. -/
theorem lineText_eq (piece : List UInt8) :
    lineText piece = Utf8.decodeLossy (withoutReturn piece) := by
  unfold lineText
  congr 1
  cases piece using List.reverseRecOn with
  | nil => rfl
  | append_singleton front b =>
      by_cases hb : b = carriageReturn <;> simp [dropReturn, withoutReturn, hb]

@[simp] theorem pieces_nil : pieces [] = [] := by
  simp [pieces]

/-- Bytes without a newline are one piece, if there are any. -/
theorem pieces_of_notMem {bytes : List UInt8} (h : newline ∉ bytes) (hne : bytes ≠ []) :
    pieces bytes = [bytes] := by
  simp [pieces, List.splitOn_eq_singleton h, hne]

/-- The first newline ends the first piece, and the pieces behind it are those of the rest. -/
theorem pieces_append {piece : List UInt8} (h : newline ∉ piece) (rest : List UInt8) :
    pieces (piece ++ newline :: rest) = piece :: pieces rest := by
  obtain ⟨first, more, hrest⟩ :=
    List.exists_cons_of_ne_nil (List.splitOn_ne_nil newline rest)
  have hsplit := List.splitOn_append_cons_self_of_not_mem h rest
  simp only [pieces, hsplit, hrest, List.getLast?_cons_cons, List.dropLast_cons_cons]
  split <;> rfl

/-- An interruption spares what stands before a newline that was received. -/
theorem keep_append (line rest : List UInt8) (a : Arrival) :
    a.keep (line ++ newline :: rest) = line ++ newline :: a.keep rest := by
  cases a with
  | chunk bytes _ _ => simp [Arrival.keep]
  | signal =>
      simp only [Arrival.keep, List.rdropWhile, List.reverse_append, List.reverse_cons,
        List.append_assoc, List.singleton_append, List.dropWhile_append]
      split
      · next hempty =>
          simp [List.isEmpty_iff.mp hempty]
      · simp

/-- What comes after a newline that is held leaves the line before it alone, however many reads
there are. -/
theorem foldl_keep_append (line rest : List UInt8) (arrivals : List Arrival) :
    arrivals.foldl Arrival.keep (line ++ newline :: rest) =
      line ++ newline :: arrivals.foldl Arrival.keep rest := by
  induction arrivals generalizing rest with
  | nil => rfl
  | cons a arrivals ih =>
      rw [List.foldl_cons, keep_append, ih, List.foldl_cons]

/-- An interruption while no newline is held deletes all that is held. -/
theorem keep_signal_of_notMem {bytes : List UInt8} (h : newline ∉ bytes) :
    Arrival.keep bytes .signal = [] := by
  rw [Arrival.keep, List.rdropWhile_eq_nil_iff]
  intro b hb
  simpa using fun heq : b = newline => h (heq ▸ hb)

/-! ## The buffer -/

/-- The buffer cannot be cut when it holds no newline. -/
theorem cutLine_eq_none_iff {bytes : List UInt8} : cutLine bytes = none ↔ newline ∉ bytes := by
  induction bytes with
  | nil => simp [cutLine]
  | cons b rest ih =>
      by_cases hb : b = newline
      · simp [cutLine, hb]
      · simp [cutLine, hb, ih, Ne.symm hb]

/-- The buffer is cut at its first newline, which belongs to neither of the two parts. -/
theorem cutLine_eq_some {bytes line rest : List UInt8} (h : cutLine bytes = some (line, rest)) :
    newline ∉ line ∧ bytes = line ++ newline :: rest := by
  induction bytes generalizing line with
  | nil => simp [cutLine] at h
  | cons b bytes ih =>
      by_cases hb : b = newline
      · simp only [cutLine, hb, if_true, Option.some.injEq, Prod.mk.injEq] at h
        obtain ⟨rfl, rfl⟩ := h
        simp [hb]
      · simp only [cutLine, hb, if_false, Option.map_eq_some_iff, Prod.mk.injEq] at h
        obtain ⟨⟨front, back⟩, hcut, rfl, rfl⟩ := h
        obtain ⟨hfront, rfl⟩ := ih hcut
        simp [hfront, Ne.symm hb]

/-- A line that is held is returned, and nothing is asked for. -/
theorem readLine_of_cut {r : LineReader} {line rest : List UInt8}
    (h : cutLine r.pending = some (line, rest)) (answers : List ReadAnswer) :
    r.readLine answers = (.line (lineText line), { r with pending := rest }, answers) := by
  unfold readLine
  simp [takeLine, h]

/-- After the end of the stream what is held is the last line, and nothing is asked for. -/
theorem readLine_of_ended {r : LineReader} (h : cutLine r.pending = none)
    (hended : r.ended = true) (answers : List ReadAnswer) :
    r.readLine answers =
      if r.pending = [] then (.endOfInput, r, answers)
      else (.line (lineText r.pending), { r with pending := [] }, answers) := by
  unfold readLine
  by_cases hp : r.pending = [] <;> simp [takeLine, h, hended, hp, cutLine]

/-- A reader that holds no newline and has not seen the end has no line to return, and asks for
more. -/
theorem takeLine_eq_none {r : LineReader} (h : cutLine r.pending = none)
    (hopen : r.ended = false) : r.takeLine = none := by
  simp [takeLine, h, hopen]

/-- The bytes of an answer join what is held, behind it, and the attempt goes on with the other
answers. -/
theorem readLine_data {r : LineReader} (h : r.takeLine = none) (hopen : r.ended = false)
    {bytes : List UInt8} (hne : bytes ≠ []) (answers : List ReadAnswer) :
    r.readLine (.data bytes :: answers) =
      readLine { r with pending := r.pending ++ bytes } answers := by
  obtain ⟨b, bytes, rfl⟩ := List.exists_cons_of_ne_nil hne
  rw [readLine]
  simp [h, hopen]

/-- An answer without bytes ends the stream; what is held becomes the last line, if it is
anything. -/
theorem readLine_end {r : LineReader} (h : cutLine r.pending = none) (hopen : r.ended = false)
    (answers : List ReadAnswer) :
    r.readLine (.data [] :: answers) = readLine { r with ended := true } answers := by
  have hended := readLine_of_ended (r := { r with ended := true }) h rfl answers
  rw [hended, readLine]
  simp only [hopen, readRest, takeLine, h]
  by_cases hp : r.pending = [] <;> simp [hp]

/-- A stream of which nothing more is heard has ended. -/
theorem readLine_nil {r : LineReader} (h : cutLine r.pending = none) (hopen : r.ended = false) :
    r.readLine [] = readLine { r with ended := true } [] := by
  rw [readLine_of_ended (r := { r with ended := true }) h rfl, readLine]
  simp only [hopen, readRest, takeLine, h]
  by_cases hp : r.pending = [] <;> simp [hp]

/-- An interruption ends the attempt and deletes what is held, since no newline is among it. -/
theorem readLine_signal {r : LineReader} (h : r.takeLine = none) (hopen : r.ended = false)
    (answers : List ReadAnswer) :
    r.readLine (.interrupted :: answers) =
      (.interrupted, { r with pending := [] }, answers) := by
  rw [readLine]
  simp [h, hopen]

/-! ## What lies ahead of a reader -/

/-- A reader with these answers before it still has these pieces to return, and this many
interruptions to report.  Before it has seen the end, the pieces are those of what it holds and of
what will arrive; afterwards only what it holds is left. -/
inductive Ahead (later : List ReadAnswer) :
    LineReader → List ReadAnswer → List (List UInt8) → Nat → Prop where
  | reading {r : LineReader} (arrivals : List Arrival) (hopen : r.ended = false) :
      Ahead later r (Arrival.answers arrivals later)
        (pieces (arrivals.foldl Arrival.keep r.pending)) (Arrival.signals arrivals)
  | finishing {r : LineReader} (answers : List ReadAnswer) (hended : r.ended = true) :
      Ahead later r answers (pieces r.pending) 0

/-- What an attempt to read a line takes off what lies ahead. -/
def Advances (later : List ReadAnswer) (parts : List (List UInt8)) (n : Nat) :
    ReadOutcome × LineReader × List ReadAnswer → Prop
  | (.line text, r, answers) => ∃ part rest, parts = part :: rest ∧ text = lineText part ∧
      Ahead later r answers rest n
  | (.interrupted, r, answers) => ∃ m, n = m + 1 ∧ Ahead later r answers parts m
  | (.endOfInput, r, answers) => parts = [] ∧ n = 0 ∧ Ahead later r answers [] 0
  | (.failed _, _, _) => False

/-- After the end of the stream an attempt returns the next piece that is held. -/
theorem readLine_finishing (later : List ReadAnswer) {r : LineReader} (hended : r.ended = true)
    (answers : List ReadAnswer) :
    Advances later (pieces r.pending) 0 (r.readLine answers) := by
  cases hcut : cutLine r.pending with
  | some parts =>
      obtain ⟨line, rest⟩ := parts
      obtain ⟨hline, hpending⟩ := cutLine_eq_some hcut
      rw [readLine_of_cut hcut, hpending, pieces_append hline]
      exact ⟨line, pieces rest, rfl, rfl, .finishing answers hended⟩
  | none =>
      have hnot := cutLine_eq_none_iff.mp hcut
      rw [readLine_of_ended hcut hended]
      by_cases hp : r.pending = []
      · have hnothing : Ahead later r answers (pieces r.pending) 0 := .finishing answers hended
        simp only [hp, if_true, pieces_nil] at hnothing ⊢
        exact ⟨rfl, rfl, hnothing⟩
      · rw [if_neg hp, pieces_of_notMem hnot hp]
        have hdone : Ahead later { r with pending := [] } answers (pieces []) 0 :=
          .finishing answers hended
        exact ⟨r.pending, [], rfl, rfl, by simpa using hdone⟩

/-- Before the end of the stream an attempt asks for what arrives until it has a line, or is
interrupted, or sees the end. -/
theorem readLine_reading (later : List ReadAnswer) {r : LineReader} (arrivals : List Arrival)
    (hopen : r.ended = false) :
    Advances later (pieces (arrivals.foldl Arrival.keep r.pending)) (Arrival.signals arrivals)
      (r.readLine (Arrival.answers arrivals later)) := by
  induction arrivals generalizing r with
  | nil =>
      cases hcut : cutLine r.pending with
      | some parts =>
          obtain ⟨line, rest⟩ := parts
          obtain ⟨hline, hpending⟩ := cutLine_eq_some hcut
          rw [readLine_of_cut hcut, hpending, List.foldl_nil, pieces_append hline]
          exact ⟨line, pieces rest, rfl, rfl, .reading [] hopen⟩
      | none =>
          have hend := readLine_end hcut hopen later
          rw [Arrival.answers, List.map_nil, List.nil_append, hend]
          exact readLine_finishing later (r := { r with ended := true }) rfl later
  | cons a arrivals ih =>
      cases hcut : cutLine r.pending with
      | some parts =>
          obtain ⟨line, rest⟩ := parts
          obtain ⟨hline, hpending⟩ := cutLine_eq_some hcut
          rw [readLine_of_cut hcut, hpending, foldl_keep_append, pieces_append hline]
          exact ⟨line, _, rfl, rfl, .reading (a :: arrivals) hopen⟩
      | none =>
          have htake := takeLine_eq_none hcut hopen
          cases a with
          | chunk bytes nonempty bounded =>
              rw [Arrival.answers_cons, Arrival.answer, readLine_data htake hopen nonempty,
                Arrival.signals_chunk]
              exact ih (r := { r with pending := r.pending ++ bytes }) hopen
          | signal =>
              have hkeep := keep_signal_of_notMem (cutLine_eq_none_iff.mp hcut)
              rw [Arrival.answers_cons, Arrival.answer, readLine_signal htake hopen,
                Arrival.signals_signal, List.foldl_cons, hkeep]
              exact ⟨_, rfl, .reading (r := { r with pending := [] }) arrivals hopen⟩

/-- **One attempt to read a line** returns the next piece that lies ahead, or reports one of the
interruptions, or there is nothing left and it says so. -/
theorem readLine_ahead {later : List ReadAnswer} {r : LineReader} {answers : List ReadAnswer}
    {parts : List (List UInt8)} {n : Nat} (h : Ahead later r answers parts n) :
    Advances later parts n (r.readLine answers) := by
  cases h with
  | reading arrivals hopen => exact readLine_reading later arrivals hopen
  | finishing answers hended => exact readLine_finishing later hended answers

/-- With nothing ahead every attempt sees the end, however many there are. -/
theorem readLines_of_nothing_ahead {later : List ReadAnswer} {r : LineReader}
    {answers : List ReadAnswer} (h : Ahead later r answers [] 0) (extra : Nat) :
    readLines extra r answers = List.replicate extra .endOfInput := by
  induction extra generalizing r answers with
  | zero => rfl
  | succ extra ih =>
      have hnext := readLine_ahead h
      rcases hread : r.readLine answers with ⟨outcome, r', answers'⟩
      rw [hread] at hnext
      cases outcome with
      | line text =>
          obtain ⟨part, rest, hparts, _⟩ := hnext
          cases hparts
      | interrupted =>
          obtain ⟨m, hm, _⟩ := hnext
          omega
      | endOfInput =>
          rw [readLines, hread, List.replicate_succ]
          exact congrArg _ (ih hnext.2.2)
      | failed errno => exact hnext.elim

/-- **Any number of attempts** returns the pieces ahead in order and reports each interruption once,
and after that sees the end. -/
theorem readLines_ahead {later : List ReadAnswer} {r : LineReader} {answers : List ReadAnswer}
    {parts : List (List UInt8)} {n : Nat} (h : Ahead later r answers parts n) (extra : Nat) :
    ∃ outcomes, readLines (parts.length + n + extra) r answers =
        outcomes ++ List.replicate extra .endOfInput ∧
      outcomes.count .interrupted = n ∧
      outcomes.filter (· ≠ .interrupted) = parts.map fun part => .line (lineText part) := by
  -- The induction is on how much lies ahead, which each attempt takes one off.
  induction hsize : parts.length + n generalizing r answers parts n with
  | zero =>
      obtain ⟨hparts, rfl⟩ := Nat.add_eq_zero_iff.mp hsize
      obtain rfl := List.eq_nil_of_length_eq_zero hparts
      refine ⟨[], ?_, rfl, rfl⟩
      rw [Nat.zero_add, List.nil_append]
      exact readLines_of_nothing_ahead h extra
  | succ size ih =>
      have hnext := readLine_ahead h
      rcases hread : r.readLine answers with ⟨outcome, r', answers'⟩
      rw [hread] at hnext
      have hsplit : readLines (size + 1 + extra) r answers =
          outcome :: readLines (size + extra) r' answers' := by
        rw [Nat.add_right_comm, readLines, hread]
      rw [hsplit]
      cases outcome with
      | line text =>
          obtain ⟨part, rest, rfl, rfl, hrest⟩ := hnext
          obtain ⟨outcomes, hrun, hcount, hlines⟩ :=
            ih hrest (by simp only [List.length_cons] at hsize; omega)
          exact ⟨.line (lineText part) :: outcomes, by rw [hrun, List.cons_append],
            by simpa using hcount, by simpa using hlines⟩
      | interrupted =>
          obtain ⟨m, rfl, hrest⟩ := hnext
          obtain ⟨outcomes, hrun, hcount, hlines⟩ := ih hrest (by omega)
          exact ⟨.interrupted :: outcomes, by rw [hrun, List.cons_append],
            by simpa using hcount, by simpa using hlines⟩
      | endOfInput =>
          obtain ⟨rfl, rfl, _⟩ := hnext
          simp at hsize
      | failed errno => exact hnext.elim

/-! ## What an interruption costs -/

/-- After the end of the stream there are no interruptions. -/
theorem readLine_ended_ne_interrupted {r r' : LineReader} {answers rest : List ReadAnswer}
    (hended : r.ended = true) : r.readLine answers ≠ (.interrupted, r', rest) := by
  intro h
  have hnext := readLine_finishing [] hended answers
  rw [h] at hnext
  obtain ⟨m, hm, _⟩ := hnext
  omega

/-- An interrupted attempt had asked only for bytes without a newline; these, with those that were
held, are all that it loses. -/
theorem readLine_interrupted {r r' : LineReader} {answers rest : List ReadAnswer}
    (h : r.readLine answers = (.interrupted, r', rest)) :
    ∃ asked, answers = asked ++ .interrupted :: rest ∧ r'.pending = [] ∧
      newline ∉ r.pending ++ asked.flatMap ReadAnswer.bytes := by
  induction answers generalizing r with
  | nil =>
      cases hended : r.ended with
      | true => exact absurd h (readLine_ended_ne_interrupted hended)
      | false =>
          cases hcut : cutLine r.pending with
          | some parts => simp [readLine_of_cut hcut] at h
          | none =>
              rw [readLine_nil hcut hended] at h
              exact absurd h (readLine_ended_ne_interrupted rfl)
  | cons answer answers ih =>
      cases hcut : cutLine r.pending with
      | some parts => simp [readLine_of_cut hcut] at h
      | none =>
          cases hended : r.ended with
          | true => exact absurd h (readLine_ended_ne_interrupted hended)
          | false =>
              have htake := takeLine_eq_none hcut hended
              have hnot := cutLine_eq_none_iff.mp hcut
              cases answer with
              | data bytes =>
                  by_cases hne : bytes = []
                  · subst hne
                    rw [readLine_end hcut hended] at h
                    exact absurd h (readLine_ended_ne_interrupted rfl)
                  · rw [readLine_data htake hended hne] at h
                    obtain ⟨asked, rfl, hlost, hnone⟩ := ih h
                    exact ⟨.data bytes :: asked, rfl, hlost,
                      by simpa [ReadAnswer.bytes] using hnone⟩
              | interrupted =>
                  rw [readLine_signal htake hended] at h
                  obtain ⟨-, rfl, rfl⟩ := Prod.mk.injEq .. ▸ h
                  exact ⟨[], rfl, rfl, by simpa using hnot⟩
              | failed errno =>
                  rw [readLine] at h
                  simp [htake, hended] at h

/-- Interruptions delete no newline: as many are held as were held before and have been received. -/
theorem count_keep (bytes : List UInt8) (a : Arrival) :
    (a.keep bytes).count newline = bytes.count newline + a.bytes.count newline := by
  cases a with
  | chunk bytes' _ _ => simp [Arrival.keep, Arrival.bytes]
  | signal =>
      have hsplit := List.rdropWhile_append_rtakeWhile (p := (· != newline)) (l := bytes)
      have hlost : newline ∉ bytes.rtakeWhile (· != newline) := by
        intro hmem
        simpa using List.mem_rtakeWhile_imp hmem
      rw [← List.count_eq_zero] at hlost
      have hcount := congrArg (List.count newline) hsplit
      rw [List.count_append, hlost] at hcount
      simpa [Arrival.keep, Arrival.bytes] using hcount

/-- What counts in the end was received, in that order. -/
theorem foldl_keep_sublist (before : List UInt8) (arrivals : List Arrival) :
    (arrivals.foldl Arrival.keep before).Sublist (before ++ arrivals.flatMap Arrival.bytes) := by
  induction arrivals generalizing before with
  | nil => simp
  | cons a arrivals ih =>
      rw [List.foldl_cons, List.flatMap_cons, ← List.append_assoc]
      refine (ih _).trans (List.Sublist.append_right ?_ _)
      cases a with
      | chunk bytes _ _ => exact List.Sublist.refl _
      | signal =>
          simpa [Arrival.keep, Arrival.bytes] using (List.rdropWhile_prefix _ _).sublist

/-- Every newline that was received counts in the end, however many reads were interrupted in
between. -/
theorem count_foldl_keep (before : List UInt8) (arrivals : List Arrival) :
    (arrivals.foldl Arrival.keep before).count newline =
      before.count newline + (arrivals.flatMap Arrival.bytes).count newline := by
  induction arrivals generalizing before with
  | nil => simp
  | cons a arrivals ih =>
      rw [List.foldl_cons, ih, count_keep, List.flatMap_cons, List.count_append, Nat.add_assoc]

/-- **Line delivery is exact.**  However a stream is cut into reads and wherever signals interrupt
it, the attempts of a fresh reader return the lines of the bytes that count, each once and in order,
report each interruption once, and after that see the end for good.  The bytes that count are a part
of those received that holds every newline, and what an interruption deletes, in whatever state it
meets the reader, holds none. -/
theorem lines_delivered_exactly (arrivals : List Arrival) (later : List ReadAnswer)
    (extra : Nat) :
    (∃ outcomes,
      readLines ((linesOf (Arrival.kept arrivals)).length + Arrival.signals arrivals + extra) {}
          (Arrival.answers arrivals later) =
        outcomes ++ List.replicate extra .endOfInput ∧
      outcomes.count .interrupted = Arrival.signals arrivals ∧
      outcomes.filter (· ≠ .interrupted) = (linesOf (Arrival.kept arrivals)).map .line) ∧
    (Arrival.kept arrivals).Sublist (arrivals.flatMap Arrival.bytes) ∧
    (Arrival.kept arrivals).count newline = (arrivals.flatMap Arrival.bytes).count newline ∧
    ∀ (r r' : LineReader) (answers rest : List ReadAnswer),
      r.readLine answers = (.interrupted, r', rest) →
      ∃ asked, answers = asked ++ .interrupted :: rest ∧ r'.pending = [] ∧
        newline ∉ r.pending ++ asked.flatMap ReadAnswer.bytes := by
  refine ⟨?_, by simpa [Arrival.kept] using foldl_keep_sublist [] arrivals,
    by simpa [Arrival.kept] using count_foldl_keep [] arrivals,
    fun r r' answers rest h => readLine_interrupted h⟩
  have hahead : Ahead later {} (Arrival.answers arrivals later)
      (pieces (Arrival.kept arrivals)) (Arrival.signals arrivals) := .reading arrivals rfl
  obtain ⟨outcomes, hrun, hcount, hlines⟩ := readLines_ahead hahead extra
  refine ⟨outcomes, by simpa [linesOf] using hrun, hcount, ?_⟩
  rw [hlines]
  simp [linesOf, lineText_eq]

/-- A carriage return and its newline may come in different reads, and an interruption costs what
came after the newline. -/
example :
    readLines 4 {} [.data [0x61, 0x0D], .data [0x0A, 0x62], .interrupted, .data [0x63]] =
      [.line ['a'], .interrupted, .line ['c'], .endOfInput] := by
  decide

end LineReader

end Conch
