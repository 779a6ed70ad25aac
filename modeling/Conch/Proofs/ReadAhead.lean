import Conch.Machine.Host
import Conch.Proofs.Delivery
import Conch.Proofs.Shell.Directory

/-!
# How far a reader reads ahead

A reader shares its stream with others, who miss what it has taken off the stream and not returned.
It asks for more bytes only while it holds no newline, so however long a line is, the first newline
that the reader gets to hold comes with the newest answer (`Newest`).  What is left after the line
was less than one answer, and lines taken out of that leave less still.  An interruption and the end
of the stream leave nothing.

An attempt to read a line is spelled out read by read (`Reads`), and each property of an attempt is
an induction on that.  The service of a stream is a series of rounds (`Goes`), each of which begins
with an attempt.

* `reads_readLine`: an attempt is a series of reads;
* `not_mem_of_reads`, `accounts_of_reads`, `newest_of_reads`: when it reads, what becomes of the
  bytes, and how many are left;
* `read_ahead_bounded`: the result for readers and for shells.
-/

namespace Conch

namespace LineReader

variable {r r' : LineReader} {answers asked rest : List ReadAnswer} {outcome : ReadOutcome}

/-! ## An attempt, read by read -/

/-- An attempt to read a line gets these answers.

A line is returned if one is held, or if the stream has ended and something is held without a
newline.  Otherwise a read is made: it brings bytes, and the attempt goes on; it brings the end,
which may be the last thing that is heard of the stream; or it is interrupted, or fails. -/
inductive Reads : LineReader → List ReadAnswer → ReadOutcome → LineReader → Prop where
  | held {r : LineReader} {line more : List UInt8} (hcut : cutLine r.pending = some (line, more)) :
      Reads r [] (.line (lineText line)) { r with pending := more }
  | last {r : LineReader} (hnone : newline ∉ r.pending) (hended : r.ended = true)
      (hsome : r.pending ≠ []) : Reads r [] (.line (lineText r.pending)) { r with pending := [] }
  | done {r : LineReader} (hended : r.ended = true) (hnothing : r.pending = []) :
      Reads r [] .endOfInput r
  | more {r r' : LineReader} {bytes : List UInt8} {asked : List ReadAnswer} {outcome : ReadOutcome}
      (hnone : newline ∉ r.pending) (hopen : r.ended = false) (hbytes : bytes ≠ [])
      (hthen : Reads { r with pending := r.pending ++ bytes } asked outcome r') :
      Reads r (.data bytes :: asked) outcome r'
  | ends {r r' : LineReader} {asked : List ReadAnswer} {outcome : ReadOutcome}
      (hnone : newline ∉ r.pending) (hopen : r.ended = false)
      (hasked : asked = [] ∨ asked = [.data []])
      (hthen : Reads { r with ended := true } [] outcome r') : Reads r asked outcome r'
  | interrupted {r : LineReader} (hnone : newline ∉ r.pending) (hopen : r.ended = false) :
      Reads r [.interrupted] .interrupted { r with pending := [] }
  | failed {r : LineReader} {errno : Errno} (hnone : newline ∉ r.pending)
      (hopen : r.ended = false) : Reads r [.failed errno] (.failed errno) r

/-- While a line is held, and after the end of the stream, nothing is read. -/
theorem reads_nothing (h : (cutLine r.pending).isSome = true ∨ r.ended = true)
    (answers : List ReadAnswer) :
    Reads r [] (r.readLine answers).1 (r.readLine answers).2.1 ∧
      (r.readLine answers).2.2 = answers := by
  cases hcut : cutLine r.pending with
  | some parts =>
      obtain ⟨line, more⟩ := parts
      rw [readLine_of_cut hcut]
      exact ⟨.held hcut, rfl⟩
  | none =>
      have hended : r.ended = true := by simpa [hcut] using h
      rw [readLine_of_ended hcut hended]
      split
      · next hnothing => exact ⟨.done hended hnothing, rfl⟩
      · next hsome => exact ⟨.last (cutLine_eq_none_iff.mp hcut) hended hsome, rfl⟩

/-- **An attempt to read a line is a series of reads**, and the answers that it did not ask for are
left. -/
theorem reads_readLine (r : LineReader) (answers : List ReadAnswer) :
    ∃ asked, answers = asked ++ (r.readLine answers).2.2 ∧
      Reads r asked (r.readLine answers).1 (r.readLine answers).2.1 := by
  induction answers generalizing r with
  | nil =>
      by_cases hready : (cutLine r.pending).isSome = true ∨ r.ended = true
      · obtain ⟨hreads, hrest⟩ := reads_nothing hready []
        exact ⟨[], hrest.symm, hreads⟩
      · rw [not_or, Option.not_isSome_iff_eq_none, Bool.not_eq_true] at hready
        obtain ⟨hcut, hopen⟩ := hready
        obtain ⟨hreads, hrest⟩ := reads_nothing (r := { r with ended := true }) (.inr rfl) []
        rw [readLine_nil hcut hopen]
        exact ⟨[], hrest.symm, .ends (cutLine_eq_none_iff.mp hcut) hopen (.inl rfl) hreads⟩
  | cons answer answers ih =>
      by_cases hready : (cutLine r.pending).isSome = true ∨ r.ended = true
      · obtain ⟨hreads, hrest⟩ := reads_nothing hready (answer :: answers)
        exact ⟨[], hrest.symm, hreads⟩
      · rw [not_or, Option.not_isSome_iff_eq_none, Bool.not_eq_true] at hready
        obtain ⟨hcut, hopen⟩ := hready
        have htake := takeLine_eq_none hcut hopen
        have hnone := cutLine_eq_none_iff.mp hcut
        cases answer with
        | data bytes =>
            by_cases hbytes : bytes = []
            · subst hbytes
              obtain ⟨hreads, hrest⟩ :=
                reads_nothing (r := { r with ended := true }) (.inr rfl) answers
              rw [readLine_end hcut hopen]
              exact ⟨[.data []], by rw [hrest]; rfl, .ends hnone hopen (.inr rfl) hreads⟩
            · rw [readLine_data htake hopen hbytes]
              obtain ⟨asked, hasked, hreads⟩ := ih { r with pending := r.pending ++ bytes }
              exact ⟨.data bytes :: asked, by rw [List.cons_append, ← hasked],
                .more hnone hopen hbytes hreads⟩
        | interrupted =>
            rw [readLine_signal htake hopen]
            exact ⟨[.interrupted], rfl, .interrupted hnone hopen⟩
        | failed errno =>
            have hread : r.readLine (.failed errno :: answers) = (.failed errno, r, answers) := by
              rw [readLine]
              simp [htake, hopen]
            rw [hread]
            exact ⟨[.failed errno], rfl, .failed hnone hopen⟩

/-! ## When a read is made -/

/-- What comes before one of a list of one is nothing. -/
theorem eq_nil_of_singleton_eq {α : Type} {a b : α} {before after : List α}
    (h : [a] = before ++ b :: after) : before = [] := by
  cases before with
  | nil => rfl
  | cons _ before => simp at h

/-- **Whenever a read is made no newline is held**, neither from before the attempt nor from its
earlier reads. -/
theorem not_mem_of_reads (h : Reads r asked outcome r') {before after : List ReadAnswer}
    {answer : ReadAnswer} (hasked : asked = before ++ answer :: after) :
    newline ∉ r.pending ++ before.flatMap ReadAnswer.bytes := by
  induction h generalizing before with
  | held | last | done => simp at hasked
  | more hnone _ _ _ ih =>
      cases before with
      | nil => simpa using hnone
      | cons first before =>
          obtain ⟨rfl, hrest⟩ := List.cons.inj hasked
          simpa [ReadAnswer.bytes, List.append_assoc] using ih hrest
  | ends hnone _ hends _ _ =>
      rcases hends with rfl | rfl
      · simp at hasked
      · obtain rfl := eq_nil_of_singleton_eq hasked
        simpa using hnone
  | interrupted hnone _ | failed hnone _ =>
      obtain rfl := eq_nil_of_singleton_eq hasked
      simpa using hnone

/-! ## What becomes of the bytes -/

/-- What becomes of the bytes that are held or were read: they are the line and what is held after
it, or they are deleted, or there were none. -/
def Accounts (bytes : List UInt8) (after : LineReader) : ReadOutcome → Prop
  | .line text => ∃ line, text = lineText line ∧ newline ∉ line ∧
      (bytes = line ++ newline :: after.pending ∨
        bytes = line ∧ after.pending = [] ∧ after.ended = true)
  | .interrupted => newline ∉ bytes ∧ after.pending = []
  | .endOfInput => bytes = [] ∧ after.pending = [] ∧ after.ended = true
  | .failed _ => newline ∉ bytes ∧ after.pending = bytes

/-- **An attempt accounts for every byte**: what was held before and what the reads brought is what
was returned and what is held now. -/
theorem accounts_of_reads (h : Reads r asked outcome r') :
    Accounts (r.pending ++ asked.flatMap ReadAnswer.bytes) r' outcome := by
  induction h with
  | held hcut =>
      obtain ⟨hline, hpending⟩ := cutLine_eq_some hcut
      exact ⟨_, rfl, hline, .inl (by simpa using hpending)⟩
  | last hnone hended _ => exact ⟨_, rfl, hnone, .inr ⟨by simp, rfl, hended⟩⟩
  | done hended hnothing => exact ⟨by simp [hnothing], hnothing, hended⟩
  | more _ _ _ _ ih => simpa [ReadAnswer.bytes, List.append_assoc] using ih
  | ends _ _ hends _ ih =>
      rcases hends with rfl | rfl
      · exact ih
      · simpa [ReadAnswer.bytes] using ih
  | interrupted hnone _ => exact ⟨by simpa [ReadAnswer.bytes] using hnone, rfl⟩
  | failed hnone _ => exact ⟨by simpa [ReadAnswer.bytes] using hnone, by simp [ReadAnswer.bytes]⟩

/-! ## How much is held -/

/-- The first newline that is held, if there is one, came with the newest answer, and so did all
that is behind it. -/
def Newest (r : LineReader) : Prop :=
  ∀ line more, cutLine r.pending = some (line, more) → more.length < ReadAnswer.chunkSize

/-- If less than one answer is held, all of it can have come with the newest one. -/
theorem newest_of_length (h : r.pending.length < ReadAnswer.chunkSize) : r.Newest := by
  intro line more hcut
  have hlength := congrArg List.length (cutLine_eq_some hcut).2
  simp only [List.length_append, List.length_cons] at hlength
  omega

/-- The bytes of one answer are added while there is no newline. -/
theorem newest_append (hnone : newline ∉ r.pending) {bytes : List UInt8}
    (hbytes : bytes.length ≤ ReadAnswer.chunkSize) :
    Newest { r with pending := r.pending ++ bytes } := by
  intro line more hcut
  obtain ⟨hline, hsplit⟩ := cutLine_eq_some hcut
  -- The newline is not in what was held before, so all that is behind it is in the new bytes.
  obtain ⟨front, hback⟩ : ∃ front, bytes = front ++ newline :: more := by
    rcases List.append_eq_append_iff.mp hsplit with ⟨front, -, hback⟩ | ⟨front, hfront, hback⟩
    · exact ⟨front, hback⟩
    · cases front with
      | nil => exact ⟨[], hback.symm⟩
      | cons b front =>
          obtain ⟨rfl, -⟩ := List.cons.inj hback
          exact absurd (by simp [hfront]) hnone
  have hlength := congrArg List.length hback
  simp only [List.length_append, List.length_cons] at hlength
  omega

/-- **What an attempt leaves held**: less than one answer after a line, and nothing after an
interruption or at the end. -/
theorem length_of_reads (h : Reads r asked outcome r') (hnewest : r.Newest)
    (hasked : ∀ answer ∈ asked, answer.bytes.length ≤ ReadAnswer.chunkSize)
    (hreads : ∀ errno, outcome ≠ .failed errno) :
    r'.pending.length < ReadAnswer.chunkSize ∧
      ((∀ text, outcome ≠ .line text) → r'.pending = []) := by
  induction h with
  | held hcut => exact ⟨hnewest _ _ hcut, fun hno => absurd rfl (hno _)⟩
  | last _ _ _ => exact ⟨Nat.succ_pos 4095, fun _ => rfl⟩
  | done _ hnothing => exact ⟨by rw [hnothing]; exact Nat.succ_pos 4095, fun _ => hnothing⟩
  | more hnone _ _ _ ih =>
      rw [List.forall_mem_cons] at hasked
      exact ih (newest_append hnone hasked.1) hasked.2 hreads
  | ends _ _ _ _ ih => exact ih hnewest (by simp) hreads
  | interrupted _ _ => exact ⟨Nat.succ_pos 4095, fun _ => rfl⟩
  | failed _ _ => exact absurd rfl (hreads _)

/-! ## Successive attempts -/

/-- After the end of the stream has been read nothing more is. -/
theorem eq_nil_of_reads_end (h : Reads r asked outcome r') {before after : List ReadAnswer}
    (hasked : asked = before ++ .data [] :: after) : after = [] := by
  induction h generalizing before with
  | held | last | done => simp at hasked
  | more _ _ hbytes _ ih =>
      cases before with
      | nil =>
          obtain ⟨hend, -⟩ := List.cons.inj hasked
          exact absurd (ReadAnswer.data.inj hend) hbytes
      | cons first before => exact ih (List.cons.inj hasked).2
  | ends _ _ hends _ _ =>
      rcases hends with rfl | rfl
      · simp at hasked
      · obtain rfl := eq_nil_of_singleton_eq hasked
        simpa [eq_comm] using hasked
  | interrupted _ _ | failed _ _ =>
      obtain rfl := eq_nil_of_singleton_eq hasked
      simp at hasked

/-- A read brings at most as many bytes as were asked for. -/
theorem length_answer (a : Arrival) : a.answer.bytes.length ≤ ReadAnswer.chunkSize := by
  cases a with
  | chunk bytes nonempty bounded => exact bounded
  | signal => exact Nat.zero_le _

/-- No read of a stream that has not ended brings more than it was asked for. -/
theorem length_of_mem_asked {arrivals : List Arrival} {later : List ReadAnswer}
    (h : Reads r asked outcome r') (hsplit : Arrival.answers arrivals later = asked ++ rest) :
    ∀ answer ∈ asked, answer.bytes.length ≤ ReadAnswer.chunkSize := by
  have harrivals : ∀ answer ∈ arrivals.map Arrival.answer,
      answer.bytes.length ≤ ReadAnswer.chunkSize := by
    intro answer hin
    obtain ⟨a, -, rfl⟩ := List.mem_map.mp hin
    exact length_answer a
  rcases List.append_eq_append_iff.mp hsplit with ⟨more, hasked, hmore⟩ | ⟨more, hasked, -⟩
  · cases more with
    | nil => rwa [hasked, List.append_nil]
    | cons first more =>
        -- the first of these tells of the end, so it is the last one that was read
        obtain ⟨rfl, -⟩ := List.cons.inj hmore
        obtain rfl := eq_nil_of_reads_end h hasked
        intro answer hin
        rw [hasked, List.mem_append, List.mem_singleton] at hin
        rcases hin with hin | rfl
        · exact harrivals answer hin
        · exact Nat.zero_le _
  · intro answer hin
    exact harrivals answer (hasked ▸ List.mem_append_left _ hin)

section Ahead

variable {later : List ReadAnswer} {parts : List (List UInt8)} {n : Nat}

/-- The same of any stream, since nothing is read after its end. -/
theorem length_of_mem_asked_of_ahead (h : Ahead later r answers parts n)
    (hreads : Reads r asked outcome r') (hread : r.readLine answers = (outcome, r', rest))
    (hsplit : answers = asked ++ rest) :
    ∀ answer ∈ asked, answer.bytes.length ≤ ReadAnswer.chunkSize := by
  cases h with
  | reading arrivals hopen => exact length_of_mem_asked hreads hsplit
  | finishing answers hended =>
      have hrest : rest = answers := by
        have hnothing := (reads_nothing (.inr hended) answers).2
        rwa [hread] at hnothing
      obtain rfl : asked = [] := by
        rw [hrest] at hsplit
        exact List.self_eq_append_left.mp hsplit
      exact fun _ hin => nomatch hin

/-- Something lies ahead of the reader after an attempt, or nothing does, but it does not fail. -/
theorem Advances.ahead (h : Advances later parts n (outcome, r', rest)) :
    (∀ errno, outcome ≠ .failed errno) ∧ ∃ parts' n', Ahead later r' rest parts' n' := by
  cases outcome with
  | line text =>
      obtain ⟨_, parts', _, _, hahead⟩ := h
      exact ⟨nofun, parts', n, hahead⟩
  | interrupted =>
      obtain ⟨n', _, hahead⟩ := h
      exact ⟨nofun, parts, n', hahead⟩
  | endOfInput => exact ⟨nofun, [], 0, h.2.2⟩
  | failed errno => exact h.elim

end Ahead

/-- An attempt to read a line, as it was: the reader before it and after it, the answers that the
reads got, and what it came to. -/
structure Attempt where
  before : LineReader
  asked : List ReadAnswer
  outcome : ReadOutcome
  after : LineReader

/-- So many successive attempts, and how they were. -/
def attempts : Nat → LineReader → List ReadAnswer → List Attempt
  | 0, _, _ => []
  | n + 1, r, answers =>
    let (outcome, r', rest) := r.readLine answers
    { before := r, asked := answers.take (answers.length - rest.length), outcome, after := r' } ::
      attempts n r' rest

/-- An attempt takes no more off the stream than it has to.  A read is made only while no newline is
held, and what is held afterwards is what was taken off the stream and not returned: after a line it
is less than what one read brings, and after an interruption and at the end it is nothing. -/
structure Attempt.Thrifty (a : Attempt) : Prop where
  waits : ∀ before answer after, a.asked = before ++ answer :: after →
    newline ∉ a.before.pending ++ before.flatMap ReadAnswer.bytes
  accounts : Accounts (a.before.pending ++ a.asked.flatMap ReadAnswer.bytes) a.after a.outcome
  little : ∀ text, a.outcome = .line text → a.after.pending.length ≤ 4095
  nothing : a.outcome = .interrupted ∨ a.outcome = .endOfInput → a.after.pending = []

/-- **One attempt**, of a reader that holds less than one answer, is thrifty, and leaves a reader
that holds less than one answer. -/
theorem thrifty_of_ahead {later : List ReadAnswer} {parts : List (List UInt8)} {n : Nat}
    (h : Ahead later r answers parts n) (hlittle : r.pending.length < ReadAnswer.chunkSize)
    (hread : r.readLine answers = (outcome, r', rest)) :
    (Attempt.mk r (answers.take (answers.length - rest.length)) outcome r').Thrifty ∧
      r'.pending.length < ReadAnswer.chunkSize := by
  obtain ⟨asked, hasked, hreads⟩ := reads_readLine r answers
  have hno := (hread ▸ readLine_ahead h).ahead.1
  rw [hread] at hasked hreads
  dsimp only at hasked hreads
  have htake : answers.take (answers.length - rest.length) = asked := by
    rw [hasked, List.length_append, Nat.add_sub_cancel, List.take_left]
  have hbounded := length_of_mem_asked_of_ahead h hreads hread hasked
  obtain ⟨hleft, hnothing⟩ := length_of_reads hreads (newest_of_length hlittle) hbounded hno
  rw [htake]
  refine ⟨⟨fun before answer after hsplit => not_mem_of_reads hreads hsplit,
    accounts_of_reads hreads, fun _ _ => Nat.le_of_lt_succ hleft, ?_⟩, hleft⟩
  rintro (rfl | rfl)
  · exact hnothing nofun
  · exact hnothing nofun

/-- **Any number of attempts are thrifty**, each with the reader that the ones before it have left,
if the first one begins with little. -/
theorem thrifty_of_mem_attempts {later : List ReadAnswer} {parts : List (List UInt8)} {k : Nat}
    (h : Ahead later r answers parts k) (hlittle : r.pending.length < ReadAnswer.chunkSize)
    (n : Nat) : ∀ a ∈ attempts n r answers, a.Thrifty := by
  induction n generalizing r answers parts k with
  | zero => exact fun _ hin => nomatch hin
  | succ n ih =>
      rcases hread : r.readLine answers with ⟨outcome, r', rest⟩
      obtain ⟨hthrifty, hleft⟩ := thrifty_of_ahead h hlittle hread
      obtain ⟨-, parts', k', hahead⟩ := (hread ▸ readLine_ahead h).ahead
      rw [attempts, hread, List.forall_mem_cons]
      exact ⟨hthrifty, ih hahead hleft⟩

end LineReader

/-! ## Streams -/

/-- No read brings more than it was asked for. -/
def InputStream.Measured {σ : Type} (input : InputStream σ) : Prop :=
  ∀ world, ∀ answer ∈ input.answers world, answer.bytes.length ≤ ReadAnswer.chunkSize

/-- Bytes that are cut into reads come in reads that are no longer than what is asked for. -/
theorem ReadAnswer.length_of_mem_chunks {bytes : List UInt8} {answer : ReadAnswer}
    (h : answer ∈ chunks bytes) : answer.bytes.length ≤ chunkSize := by
  unfold chunks at h
  generalize bytes.length / chunkSize + 1 = fuel at h
  induction fuel generalizing bytes with
  | zero => exact nomatch h
  | succ fuel ih =>
      cases bytes with
      | nil => exact nomatch h
      | cons b bytes =>
          rcases List.mem_cons.mp h with rfl | hlater
          · exact List.length_take_le _ _
          · exact ih hlater

/-- The standard input of the machine, be it a file or not. -/
theorem Machine.measured_standardInput : Machine.standardInput.Measured := by
  intro m answer hin
  simp only [standardInput] at hin
  split at hin
  · next file offset _ =>
      unfold fileAnswers at hin
      split at hin
      · obtain rfl := List.mem_singleton.mp hin
        exact Nat.zero_le _
      · exact ReadAnswer.length_of_mem_chunks hin
  · rcases List.mem_append.mp hin with hnow | hlater
    · exact ReadAnswer.length_of_mem_chunks hnow
    · obtain ⟨event, -, hevent⟩ := List.mem_flatMap.mp hlater
      cases event with
      | send bytes => exact ReadAnswer.length_of_mem_chunks hevent
      | signal number =>
          simp only [eventAnswers] at hevent
          split at hevent
          · exact nomatch hevent
          · obtain rfl := List.mem_singleton.mp hevent
            exact Nat.zero_le _
      | close =>
          obtain rfl := List.mem_singleton.mp hevent
          exact Nat.zero_le _

namespace Shell

variable {σ : Type} (H : Host σ) (input : InputStream σ) (prompt : Option String)
  (perform : Text → Act σ Unit)

/-! ## Rounds -/

/-- What the shell does when the reading of a line was interrupted, before it tries again. -/
def afterInterruption : Act σ Unit := do
  pollSignals H
  let sh ← get
  if sh.interpreter.signalCaught && sh.config.interactive then
    print H "
"

/-- A round of the service comes to its end, and the next one begins: the attempt to read a line was
interrupted, or a line was read and dealt with. -/
inductive Goes : LineReader × Shell σ → LineReader × Shell σ → Prop where
  | interrupted {reader reader' : LineReader} {sh mid sh' : Shell σ}
      (hattempt : attempt H input prompt reader sh = .ok (.interrupted, reader') mid)
      (hthen : afterInterruption H mid = .ok () sh') : Goes (reader, sh) (reader', sh')
  | line {reader reader' : LineReader} {sh mid sh' : Shell σ} {text : Text}
      (hline : Reaches H input prompt reader sh text reader' mid)
      (hdone : reporting H (perform text) mid = .ok () sh') : Goes (reader, sh) (reader', sh')

variable {reader reader' : LineReader} {sh sh' mid : Shell σ}

/-- A round is a part of the service: what is left of it is the service from where the round has led
to. -/
theorem serve_of_goes {before after : LineReader × Shell σ}
    (h : Goes H input prompt perform before after) (fuel : Nat) :
    serve H input prompt perform (fuel + 1) before.1 before.2 =
      serve H input prompt perform fuel after.1 after.2 := by
  cases h with
  | @interrupted reader reader' sh mid sh' hattempt hthen =>
      have hanswer : answerOutcome H input prompt perform fuel (.interrupted, reader') =
          afterInterruption H >>= fun _ => serve H input prompt perform fuel reader' := by
        rw [answerOutcome, afterInterruption, bind_assoc]
        refine bind_congr fun _ => ?_
        rw [bind_assoc]
        refine bind_congr fun sh => ?_
        split <;> rfl
      rw [serve_succ, bind_of_ok hattempt, hanswer, bind_of_ok hthen]
  | line hline hdone =>
      rw [serve_of_reaches H input prompt perform fuel hline, bind_of_ok hdone]

/-- The reader after an attempt is the one that it was, with some answers of the stream read. -/
theorem of_attempt_eq_ok {outcome : ReadOutcome}
    (h : attempt H input prompt reader sh = .ok (outcome, reader') mid) :
    ∃ answers, (∀ answer ∈ answers, ∃ world, answer ∈ input.answers world) ∧
      (reader.readLine answers).1 = outcome ∧ (reader.readLine answers).2.1 = reader' := by
  obtain ⟨⟨⟩, ready, -, hrest⟩ := of_bind_eq_ok h
  obtain ⟨read, done, hread, hrest⟩ := of_bind_eq_ok hrest
  obtain ⟨⟨⟩, taken, -, hrest⟩ := of_bind_eq_ok hrest
  obtain ⟨rfl, -⟩ := EStateM.Result.ok.inj hrest
  obtain ⟨hpair, -⟩ := EStateM.Result.ok.inj hread
  refine ⟨_, ?_, congrArg Prod.fst hpair, congrArg Prod.snd hpair⟩
  intro answer hin
  split at hin
  · exact nomatch hin
  · exact ⟨_, hin⟩

variable {input prompt perform}

/-- What is held after an attempt is less than one answer. -/
theorem length_of_attempt (hmeasured : input.Measured)
    (hlittle : reader.pending.length < ReadAnswer.chunkSize) {outcome : ReadOutcome}
    (h : attempt H input prompt reader sh = .ok (outcome, reader') mid)
    (hreads : ∀ errno, outcome ≠ .failed errno) :
    reader'.pending.length < ReadAnswer.chunkSize := by
  obtain ⟨answers, hanswers, rfl, rfl⟩ := of_attempt_eq_ok H input prompt h
  obtain ⟨asked, hasked, hreads'⟩ := LineReader.reads_readLine reader answers
  have hbounded : ∀ answer ∈ asked, answer.bytes.length ≤ ReadAnswer.chunkSize := by
    intro answer hin
    obtain ⟨world, hworld⟩ := hanswers answer (hasked ▸ List.mem_append_left _ hin)
    exact hmeasured world answer hworld
  exact (LineReader.length_of_reads hreads' (LineReader.newest_of_length hlittle) hbounded
    hreads).1

/-- **What a round preserves**: less is held than one read may bring, whatever the round does with
its line. -/
theorem length_of_goes (hmeasured : input.Measured) {before after : LineReader × Shell σ}
    (h : Goes H input prompt perform before after)
    (hlittle : before.1.pending.length < ReadAnswer.chunkSize) :
    after.1.pending.length < ReadAnswer.chunkSize := by
  cases h with
  | interrupted hattempt _ => exact length_of_attempt H hmeasured hlittle hattempt nofun
  | line hline _ =>
      obtain ⟨_, hattempt, _⟩ := hline
      exact length_of_attempt H hmeasured hlittle hattempt nofun

/-- **What any number of rounds preserves**: less is held than one read may bring. -/
theorem length_of_rounds (hmeasured : input.Measured) {before after : LineReader × Shell σ}
    (h : Relation.ReflTransGen (Goes H input prompt perform) before after)
    (hlittle : before.1.pending.length < ReadAnswer.chunkSize) :
    after.1.pending.length < ReadAnswer.chunkSize := by
  induction h with
  | refl => exact hlittle
  | tail _ hround ih => exact length_of_goes H hmeasured hround ih

/-- A number of rounds is a part of the service. -/
theorem serve_of_rounds {before after : LineReader × Shell σ}
    (h : Relation.ReflTransGen (Goes H input prompt perform) before after) :
    ∃ n, ∀ fuel, serve H input prompt perform (fuel + n) before.1 before.2 =
      serve H input prompt perform fuel after.1 after.2 := by
  induction h with
  | refl => exact ⟨0, fun _ => rfl⟩
  | tail _ hround ih =>
      obtain ⟨n, hserve⟩ := ih
      refine ⟨n + 1, fun fuel => ?_⟩
      rw [← serve_of_goes H input prompt perform hround fuel, ← hserve (fuel + 1),
        Nat.add_right_comm fuel 1 n, Nat.add_assoc]

/-! ## The result -/

/-- **Little is read ahead, however long the lines are.**  Whatever the answers of a stream are and
however many attempts a fresh reader makes, a read is made only while no newline is held; what is
held after an attempt is what was taken off the stream and not returned, and it is at most 4095
bytes after a line, and none after an interruption or at the end.  So a shell that serves a stream,
such as the standard input of the machine, holds no more than that back while it deals with a line,
or at the beginning of a round. -/
theorem read_ahead_bounded :
    (∀ (arrivals : List Arrival) (later : List ReadAnswer) (n : Nat),
      ∀ a ∈ LineReader.attempts n {} (Arrival.answers arrivals later), a.Thrifty) ∧
    Machine.standardInput.Measured ∧
    ∀ (σ : Type) (H : Host σ) (input : InputStream σ) (prompt : Option String)
      (perform : Text → Act σ Unit) (sh sh' : Shell σ) (reader : LineReader),
      input.Measured →
      Relation.ReflTransGen (Goes H input prompt perform) ({}, sh) (reader, sh') →
      (∃ n, ∀ fuel, serve H input prompt perform (fuel + n) {} sh =
        serve H input prompt perform fuel reader sh') ∧
      reader.pending.length ≤ 4095 ∧
      ∀ text reader' mid, Reaches H input prompt reader sh' text reader' mid →
        reader'.pending.length ≤ 4095 ∧
        ∀ fuel, serve H input prompt perform (fuel + 1) reader sh' =
          (do reporting H (perform text); serve H input prompt perform fuel reader') mid := by
  refine ⟨fun arrivals later n => ?_, Machine.measured_standardInput, ?_⟩
  · have hahead : LineReader.Ahead later {} (Arrival.answers arrivals later)
        (LineReader.pieces (arrivals.foldl Arrival.keep [])) (Arrival.signals arrivals) :=
      .reading arrivals rfl
    exact LineReader.thrifty_of_mem_attempts hahead (Nat.succ_pos 4095) n
  · intro σ H input prompt perform sh sh' reader hmeasured hrounds
    have hlittle := length_of_rounds H hmeasured hrounds (Nat.succ_pos 4095)
    refine ⟨serve_of_rounds H hrounds, Nat.le_of_lt_succ hlittle, ?_⟩
    intro text reader' mid hline
    refine ⟨?_, fun fuel => serve_of_reaches H input prompt perform fuel hline⟩
    obtain ⟨_, hattempt, _⟩ := hline
    exact Nat.le_of_lt_succ (length_of_attempt H hmeasured hlittle hattempt nofun)

/-- A shell that is given two empty lines at once. -/
def twoLines : Shell Machine :=
  fresh {} 1 {} { inside with feed := { available := [0x0A, 0x0A] } }

/-- The same shell when it has read them. -/
def noLines : Shell Machine :=
  fresh {} 1 {} inside

/-- The second of two lines that come at once is held while the first one is dealt with, and it is
the next one to be dealt with. -/
theorem read_ahead_of_two_lines :
    Machine.standardInput.Measured ∧
    Relation.ReflTransGen (Goes Machine.host Machine.standardInput none (execute Machine.host))
      ({}, twoLines) ({ pending := [0x0A] }, noLines) ∧
    Reaches Machine.host Machine.standardInput none { pending := [0x0A] } noLines [] {} noLines ∧
    LineReader.Attempt.Thrifty
      { before := {}
        asked := [.data [0x0A, 0x0A]]
        outcome := .line []
        after := { pending := [0x0A] } } ∧
    ({ pending := [0x0A] } : LineReader).pending.length ≤ 4095 ∧
    ∀ fuel, serve Machine.host Machine.standardInput none (execute Machine.host) (fuel + 1)
        { pending := [0x0A] } noLines =
      (do
        reporting Machine.host (execute Machine.host [])
        serve Machine.host Machine.standardInput none (execute Machine.host) fuel {}) noLines := by
  obtain ⟨hattempts, hmeasured, hrounds⟩ := read_ahead_bounded
  have hfirst : Reaches Machine.host Machine.standardInput none {} twoLines []
      { pending := [0x0A] } noLines := ⟨noLines, rfl, rfl⟩
  have hround : Goes Machine.host Machine.standardInput none (execute Machine.host)
      ({}, twoLines) ({ pending := [0x0A] }, noLines) := .line hfirst rfl
  have hsecond : Reaches Machine.host Machine.standardInput none { pending := [0x0A] } noLines []
      {} noLines := ⟨noLines, rfl, rfl⟩
  obtain ⟨-, hlittle, hnext⟩ := hrounds Machine Machine.host Machine.standardInput none
    (execute Machine.host) twoLines noLines _ hmeasured (.single hround)
  have hthrifty := hattempts [.chunk [0x0A, 0x0A] (by decide) (by decide)] [] 1
  exact ⟨hmeasured, .single hround, hsecond, hthrifty _ List.mem_cons_self, hlittle,
    (hnext _ _ _ hsecond).2⟩

end Shell

end Conch
