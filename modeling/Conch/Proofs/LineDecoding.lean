import Conch.Proofs.Text.Replacement

/-!
# Lines are cut before they are decoded

A reader cuts the bytes of a stream at the newlines and decodes each line alone.  That would go
wrong if a newline could be a part of a character, or if the decoder could go on with a character
across one.  Neither can happen: a newline is a character of its own, so decoding starts anew at
each (`decodeLossy_append_newline`), and a line without its newline is decoded to what it is in the
text of the whole stream, however broken the bytes next to the newline are.

Only a carriage return at the end of a line makes a difference, since it is dropped.

* `pieces_induction`: a stream is nothing, or a line without a newline, or a line with one and a
  stream;
* `rejoin_pieces`: the lines, written one after the other, are the text of the stream;
* `lines_decoded_unharmed`: the result for readers.
-/

namespace Conch.LineReader

/-! ## What is read -/

/-- No carriage return stands directly before a newline or at the end. -/
def KeepsReturns (bytes : List UInt8) : Prop :=
  ¬ [carriageReturn, newline] <:+: bytes ∧ ¬ [carriageReturn] <:+ bytes

instance (bytes : List UInt8) : Decidable (KeepsReturns bytes) :=
  inferInstanceAs (Decidable (_ ∧ _))

/-- The end of the last line, if it has one. -/
def closing (bytes : List UInt8) : Text :=
  if bytes.getLast? = some newline then ['\n'] else []

/-- The lines of a stream, written one after the other. -/
def rejoin (bytes : List UInt8) (lines : List Text) : Text :=
  ['\n'].intercalate lines ++ closing bytes

/-- The lines are what they are in the text of the whole stream: written one after the other they
are that text, every newline ends a line, and nothing else does.  As much is replaced as in the
whole stream, and what stands on one side of a newline has no part in the lines on the other.  Where
the stream is text, that is what is read. -/
structure Unharmed (bytes : List UInt8) (lines : List Text) : Prop where
  joined : rejoin bytes lines = Utf8.decodeLossy bytes
  ended : lines.length = bytes.count newline +
    if bytes = [] ∨ bytes.getLast? = some newline then 0 else 1
  unbroken : ∀ line ∈ lines, '\n' ∉ line
  replaced : lines.flatten.count Utf8.replacement =
    (Utf8.decodeLossy bytes).count Utf8.replacement
  apart : ∀ before after, bytes = before ++ newline :: after →
    lines = linesOf (before ++ [newline]) ++ linesOf after
  verbatim : ∀ before t after, bytes = before ++ (Utf8.encode t ++ after) → t ≠ [] →
    rejoin bytes lines = Utf8.decodeLossy before ++ (t ++ Utf8.decodeLossy after)

/-! ## Pieces -/

/-- Bytes are nothing, or a piece, or a piece before a newline and other bytes. -/
@[elab_as_elim]
theorem pieces_induction {motive : List UInt8 → Prop} (nil : motive [])
    (last : ∀ piece, newline ∉ piece → piece ≠ [] → motive piece)
    (more : ∀ piece rest, newline ∉ piece → motive rest → motive (piece ++ newline :: rest))
    (bytes : List UInt8) : motive bytes := by
  induction hsize : bytes.length using Nat.strongRecOn generalizing bytes with
  | ind size ih =>
      cases hcut : cutLine bytes with
      | none =>
          by_cases hnothing : bytes = []
          · rw [hnothing]
            exact nil
          · exact last bytes (cutLine_eq_none_iff.mp hcut) hnothing
      | some parts =>
          obtain ⟨hpiece, rfl⟩ := cutLine_eq_some hcut
          rw [List.length_append, List.length_cons] at hsize
          exact more _ _ hpiece (ih parts.2.length (by omega) parts.2 rfl)

/-- A piece is the end of the bytes or stands before a newline. -/
theorem of_mem_pieces {bytes piece : List UInt8} (h : piece ∈ pieces bytes) :
    newline ∉ piece ∧ (piece ++ [newline] <:+: bytes ∨ piece <:+ bytes) := by
  induction bytes using pieces_induction with
  | nil => simp at h
  | last bytes hnone hsome =>
      rw [pieces_of_notMem hnone hsome, List.mem_singleton] at h
      subst h
      exact ⟨hnone, .inr List.suffix_rfl⟩
  | more first rest hnone ih =>
      rw [pieces_append hnone, List.mem_cons] at h
      rcases h with rfl | h
      · exact ⟨hnone, .inl ⟨[], rest, by simp⟩⟩
      · obtain ⟨hpiece, hplace⟩ := ih h
        have hrest : rest <:+ first ++ newline :: rest := ⟨first ++ [newline], by simp⟩
        refine ⟨hpiece, ?_⟩
        rcases hplace with hinside | hend
        · exact .inl (hinside.trans hrest.isInfix)
        · exact .inr (hend.trans hrest)

/-- Bytes have a piece, so that a stream that is not empty has a line. -/
theorem pieces_ne_nil {bytes : List UInt8} (h : bytes ≠ []) : pieces bytes ≠ [] := by
  induction bytes using pieces_induction with
  | nil => exact absurd rfl h
  | last bytes hnone hsome => simp [pieces_of_notMem hnone hsome]
  | more piece rest hnone _ => simp [pieces_append hnone]

/-- The pieces are those up to a newline and those after it. -/
theorem pieces_append_newline (before after : List UInt8) :
    pieces (before ++ newline :: after) = pieces (before ++ [newline]) ++ pieces after := by
  induction before using pieces_induction with
  | nil =>
      have hnone : newline ∉ [] := List.not_mem_nil
      rw [pieces_append hnone, pieces_append hnone, pieces_nil, List.singleton_append]
  | last before hnone _ => rw [pieces_append hnone, pieces_append hnone, pieces_nil,
      List.singleton_append]
  | more piece rest hnone ih =>
      rw [List.append_assoc, List.append_assoc, List.cons_append, List.cons_append,
        pieces_append hnone, pieces_append hnone, ih, List.cons_append]

/-- The bytes after a newline end as all do, unless there are none. -/
theorem getLast?_append_newline (piece : List UInt8) {rest : List UInt8} (h : rest ≠ []) :
    (piece ++ newline :: rest).getLast? = rest.getLast? := by
  rw [List.append_cons, List.getLast?_append_of_ne_nil _ h]

/-- There are as many pieces as newlines, and one more if the bytes do not end in one. -/
theorem length_pieces (bytes : List UInt8) : (pieces bytes).length = bytes.count newline +
    if bytes = [] ∨ bytes.getLast? = some newline then 0 else 1 := by
  induction bytes using pieces_induction with
  | nil => simp
  | last bytes hnone hsome =>
      have hlast : bytes.getLast? ≠ some newline := by
        intro hlast
        exact hnone (List.mem_of_getLast? hlast)
      simp [pieces_of_notMem hnone hsome, List.count_eq_zero_of_not_mem hnone, hsome, hlast]
  | more piece rest hnone ih =>
      rw [pieces_append hnone, List.length_cons, ih, List.count_append,
        List.count_eq_zero_of_not_mem hnone, List.count_cons_self]
      by_cases hrest : rest = []
      · simp [hrest]
      · simp [getLast?_append_newline piece hrest, hrest]
        omega

/-! ## Texts -/

/-- **Decoding starts anew at a newline.**  No character extends over one, so what stands on one
side of it is decoded without the other. -/
theorem decodeLossy_append_newline (before after : List UInt8) :
    Utf8.decodeLossy (before ++ newline :: after) =
      Utf8.decodeLossy before ++ '\n' :: Utf8.decodeLossy after := by
  have hnewline : String.utf8EncodeChar '\n' = [newline] := by decide
  have hread := Utf8.decodeLossy_append_encodeChar before '\n' after
  rwa [hnewline, List.singleton_append] at hread

/-- **The texts of the pieces are the text of all bytes.** -/
theorem rejoin_pieces (bytes : List UInt8) :
    rejoin bytes ((pieces bytes).map Utf8.decodeLossy) = Utf8.decodeLossy bytes := by
  induction bytes using pieces_induction with
  | nil => simp [rejoin, closing, Utf8.decodeLossy, Utf8.decodeFrom, Utf8.finish]
  | last bytes hnone hsome =>
      have hlast : bytes.getLast? ≠ some newline := by
        intro hlast
        exact hnone (List.mem_of_getLast? hlast)
      rw [rejoin, closing, if_neg hlast, pieces_of_notMem hnone hsome, List.map_singleton,
        List.intercalate_singleton, List.append_nil]
  | more piece rest hnone ih =>
      rw [pieces_append hnone, List.map_cons, decodeLossy_append_newline, ← ih]
      by_cases hrest : rest = []
      · simp [rejoin, closing, hrest]
      · have hmore : (pieces rest).map Utf8.decodeLossy ≠ [] := by
          simpa using pieces_ne_nil hrest
        rw [rejoin, rejoin, closing, closing, getLast?_append_newline piece hrest,
          List.intercalate_cons_of_ne_nil hmore]
        simp

/-- No carriage return is dropped from bytes that keep theirs. -/
theorem linesOf_eq {bytes : List UInt8} (h : KeepsReturns bytes) :
    linesOf bytes = (pieces bytes).map Utf8.decodeLossy := by
  refine List.map_congr_left fun piece hpiece => ?_
  obtain ⟨-, hplace⟩ := of_mem_pieces hpiece
  congr 1
  cases piece using List.reverseRecOn with
  | nil => rfl
  | append_singleton front b =>
      have hb : b ≠ carriageReturn := by
        rintro rfl
        rcases hplace with hinside | hend
        · apply h.1
          refine List.IsInfix.trans ⟨front, [], ?_⟩ hinside
          simp
        · exact h.2 (List.IsSuffix.trans ⟨front, rfl⟩ hend)
      simp [withoutReturn, hb]

/-- A carriage return before a newline is dropped, and the text of the bytes has it. -/
example : rejoin [0x61, 0x0D, 0x0A] (linesOf [0x61, 0x0D, 0x0A]) = ['a', '\n'] ∧
    Utf8.decodeLossy [0x61, 0x0D, 0x0A] = ['a', '\r', '\n'] := by
  decide

/-- A character that is no newline is not made and not lost when lines are joined by newlines. -/
theorem count_intercalate {c : Char} (hc : c ≠ '\n') (lines : List Text) :
    (['\n'].intercalate lines).count c = lines.flatten.count c := by
  induction lines with
  | nil => rfl
  | cons line lines ih =>
      cases lines with
      | nil => simp
      | cons next lines =>
          rw [List.intercalate_cons_cons, List.count_append, List.count_append, ih,
            List.flatten_cons, List.count_append, List.count_singleton]
          simp [Ne.symm hc]

/-- When lines are written one after the other, nothing but newlines is added to them. -/
theorem count_rejoin {c : Char} (hc : c ≠ '\n') (bytes : List UInt8) (lines : List Text) :
    (rejoin bytes lines).count c = lines.flatten.count c := by
  have hnone : (closing bytes).count c = 0 := by
    unfold closing
    split <;> simp [Ne.symm hc]
  rw [rejoin, List.count_append, hnone, count_intercalate hc, Nat.add_zero]

/-- **Cutting does no harm** to bytes that keep their carriage returns. -/
theorem unharmed {bytes : List UInt8} (h : KeepsReturns bytes) :
    Unharmed bytes (linesOf bytes) := by
  have hjoined : rejoin bytes (linesOf bytes) = Utf8.decodeLossy bytes := by
    rw [linesOf_eq h, rejoin_pieces]
  refine ⟨hjoined, ?_, ?_, ?_, ?_, ?_⟩
  · rw [linesOf, List.length_map, length_pieces]
  · intro line hline
    rw [linesOf_eq h] at hline
    obtain ⟨piece, hpiece, rfl⟩ := List.mem_map.mp hline
    have hcount := Utf8.count_decodeLossy piece (b := newline) (by decide)
    rw [List.count_eq_zero_of_not_mem (of_mem_pieces hpiece).1] at hcount
    exact List.count_eq_zero.mp hcount
  · rw [← count_rejoin (by decide) bytes, hjoined]
  · rintro before after rfl
    rw [linesOf, pieces_append_newline, List.map_append]
    rfl
  · rintro before t after hbytes ht
    rw [hjoined, hbytes, Utf8.decodeLossy_within before after ht]

/-! ## The result -/

/-- While no signal arrives all bytes count, none of those that are held being deleted. -/
theorem kept_of_no_signals {arrivals : List Arrival} (h : Arrival.signals arrivals = 0) :
    Arrival.kept arrivals = arrivals.flatMap Arrival.bytes := by
  have hfrom : ∀ before, arrivals.foldl Arrival.keep before =
      before ++ arrivals.flatMap Arrival.bytes := by
    induction arrivals with
    | nil => simp
    | cons a arrivals ih =>
        cases a with
        | chunk bytes nonempty bounded =>
            intro before
            rw [Arrival.signals_chunk] at h
            rw [List.foldl_cons, ih h, List.flatMap_cons, ← List.append_assoc]
            rfl
        | signal => simp at h
  exact hfrom []

/-- **Lines that are cut before they are decoded are what they are in the text of the stream.**
Whatever bytes a stream brings, and however they are cut into reads: if none of its carriage returns
stands directly before a newline or at the end, then the attempts of a fresh reader return lines
that, written one after the other, are the text of the stream, until they see the end.  No newline
is swallowed, as much is replaced as in the whole stream, the lines on the two sides of a newline
have nothing to do with each other, and where the stream is text it is read as it is.  The text of
bytes is what decoding with one replacement for each maximal part that is no text gives. -/
theorem lines_decoded_unharmed (arrivals : List Arrival) (later : List ReadAnswer) (extra : Nat)
    (hreturns : KeepsReturns (Arrival.kept arrivals)) :
    (∃ lines,
      (readLines (lines.length + Arrival.signals arrivals + extra) {}
          (Arrival.answers arrivals later)).filter (· ≠ .interrupted) =
        lines.map .line ++ List.replicate extra .endOfInput ∧
      Unharmed (Arrival.kept arrivals) lines) ∧
    (Arrival.signals arrivals = 0 → Arrival.kept arrivals = arrivals.flatMap Arrival.bytes) ∧
    ∀ bytes text, Utf8.Reading bytes text ↔ text = Utf8.decodeLossy bytes := by
  refine ⟨⟨linesOf (Arrival.kept arrivals), ?_, unharmed hreturns⟩, kept_of_no_signals,
    fun bytes text => Utf8.reading_iff⟩
  have hahead : Ahead later {} (Arrival.answers arrivals later)
      (pieces (Arrival.kept arrivals)) (Arrival.signals arrivals) := .reading arrivals rfl
  obtain ⟨outcomes, hrun, -, hlines⟩ := readLines_ahead hahead extra
  have hlength : (linesOf (Arrival.kept arrivals)).length =
      (pieces (Arrival.kept arrivals)).length := List.length_map _
  have hends : (List.replicate extra ReadOutcome.endOfInput).filter (· ≠ .interrupted) =
      List.replicate extra .endOfInput := by
    simp
  have htexts : ((pieces (Arrival.kept arrivals)).map fun part => .line (lineText part)) =
      (linesOf (Arrival.kept arrivals)).map ReadOutcome.line := by
    simp [linesOf, lineText_eq]
  rw [hlength, hrun, List.filter_append, hlines, hends, htexts]

/-- A stream with a truncated character before a newline, a surrogate, and a character that comes in
two reads; it ends within a character. -/
def brokenStream : List Arrival :=
  [.chunk [0x61, 0xE2, 0x82] (by decide) (by decide),
    .chunk [0x0A, 0xED, 0xA0] (by decide) (by decide),
    .chunk [0x80, 0x0A, 0xC3] (by decide) (by decide),
    .chunk [0xA9, 0x0D, 0xF0, 0x9F] (by decide) (by decide)]

/-- The lines of the broken stream. -/
def brokenLines : List Text :=
  [['a', '\uFFFD'], ['\uFFFD', '\uFFFD', '\uFFFD'], ['é', '\r', '\uFFFD']]

/-- Each line of the broken stream is replaced for itself. -/
theorem lines_decoded_unharmed_of_brokenStream :
    KeepsReturns (Arrival.kept brokenStream) ∧
    readLines 4 {} (Arrival.answers brokenStream []) =
      brokenLines.map .line ++ [.endOfInput] ∧
    Unharmed (brokenStream.flatMap Arrival.bytes) brokenLines := by
  have hreturns : KeepsReturns (Arrival.kept brokenStream) := by decide
  have hread : readLines 4 {} (Arrival.answers brokenStream []) =
      brokenLines.map .line ++ [.endOfInput] := by decide
  obtain ⟨⟨lines, hrun, hunharmed⟩, hkept, -⟩ := lines_decoded_unharmed brokenStream [] 1 hreturns
  have hlength : lines.length = 3 := hunharmed.ended.trans (by decide)
  have hlines : brokenLines = lines := by
    have hsignals : Arrival.signals brokenStream = 0 := by decide
    rw [hlength, hsignals, hread] at hrun
    have hsame : brokenLines.map ReadOutcome.line = lines.map .line :=
      List.append_cancel_right hrun
    exact List.map_injective_iff.mpr (fun _ _ h => ReadOutcome.line.inj h) hsame
  rw [hkept (by decide), ← hlines] at hunharmed
  exact ⟨hreturns, hread, hunharmed⟩

end Conch.LineReader
