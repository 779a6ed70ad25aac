import Conch.Command
import Conch.Proofs.Delivery
import Conch.Proofs.Text.Words

/-!
# Lines that are written down and read back

Decoding undoes encoding, character by character: the first byte of a character leaves the decoder
waiting for exactly the bytes that follow (`decodeFrom_encodeChar`).  A byte that stands for itself
only comes from its own character (`mem_encodeChar`), so a text without a newline is written down
without one, and is read back as one line.  A carriage return at its end gets lost on the way, but
it is a blank, and the line is the same command with or without it (`linesOf_encode`).
-/

namespace Conch

namespace Utf8

/-! ## Characters -/

/-- A byte below 128 is a character by itself, and the decoder is between two characters again. -/
theorem feedStart_one : ∀ n < 128, feedStart (UInt8.ofNat n) = ([Char.ofNat n], .start) := by
  decide +kernel

/-- A byte from 194 to 223 begins a character of two bytes, and any byte from 128 to 191 may
follow. -/
theorem feedStart_two : ∀ n < 32, 2 ≤ n →
    feedStart (UInt8.ofNat (n + 192)) = ([], .inside 0 0x80 0xBF n) := by
  decide +kernel

/-- The range of the second byte keeps out what has a shorter form, and the surrogates. -/
theorem feedStart_three : ∀ n < 16, feedStart (UInt8.ofNat (n + 224)) =
    ([], .inside 1 (if n = 0 then 0xA0 else 0x80) (if n = 13 then 0x9F else 0xBF) n) := by
  decide +kernel

/-- The range of the second byte keeps out what has a shorter form, and what is too large. -/
theorem feedStart_four : ∀ n < 5, feedStart (UInt8.ofNat (n + 240)) =
    ([], .inside 2 (if n = 0 then 0x90 else 0x80) (if n = 4 then 0x8F else 0xBF) n) := by
  decide +kernel

section Inside

variable {low high : UInt8} {value m : Nat} (hlow : low.toNat ≤ m + 128)
  (hhigh : m + 128 ≤ high.toNat)

include hlow hhigh

/-- The byte that is waited for gives the lowest bits. -/
theorem feed_inside (owed : Nat) :
    feed (.inside owed low high value) (UInt8.ofNat (m + 128)) =
      match owed with
      | 0 => ([Char.ofNat (value * 64 + m)], .start)
      | owed + 1 => ([], .inside owed 0x80 0xBF (value * 64 + m)) := by
  have hbyte : (UInt8.ofNat (m + 128)).toNat = m + 128 := by
    rw [UInt8.toNat_ofNat']
    exact Nat.mod_eq_of_lt (Nat.lt_of_le_of_lt hhigh high.toNat_lt)
  have hrange : (decide (low ≤ UInt8.ofNat (m + 128)) &&
      decide (UInt8.ofNat (m + 128) ≤ high)) = true := by
    simp only [UInt8.le_iff_toNat_le, hbyte, Bool.and_eq_true, decide_eq_true_eq]
    exact ⟨hlow, hhigh⟩
  have hbits : (UInt8.ofNat (m + 128)).toNat - 0x80 = m := by
    rw [hbyte]
    exact Nat.add_sub_cancel m 128
  cases owed <;> simp only [feed, hrange, hbits, if_true]

/-- The last byte of a character adds its six bits to the value, and the character is complete. -/
theorem feed_last : feed (.inside 0 low high value) (UInt8.ofNat (m + 128)) =
    ([Char.ofNat (value * 64 + m)], .start) :=
  feed_inside hlow hhigh 0

/-- A byte in the middle of a character adds its six bits, and after it any byte from 128 to 191 may
follow. -/
theorem feed_more (owed : Nat) :
    feed (.inside (owed + 1) low high value) (UInt8.ofNat (m + 128)) =
      ([], .inside owed 0x80 0xBF (value * 64 + m)) :=
  feed_inside hlow hhigh (owed + 1)

end Inside

/-- **A character is read back**, whatever bytes come after it, and the decoder is between two
characters again. -/
theorem decodeFrom_encodeChar (c : Char) (rest : List UInt8) :
    decodeFrom .start (String.utf8EncodeChar c ++ rest) = c :: decodeFrom .start rest := by
  have hchar : Char.ofNat c.val.toNat = c := Char.ofNat_toNat c
  have hvalid : c.val.toNat < 0xD800 ∨ 0xDFFF < c.val.toNat ∧ c.val.toNat < 0x110000 := c.valid
  have hstart : ∀ b, feed .start b = feedStart b := fun _ => rfl
  have hany : ∀ n, (0x80 : UInt8).toNat ≤ n % 64 + 128 ∧ n % 64 + 128 ≤ (0xBF : UInt8).toNat := by
    intro n
    have hlow : (0x80 : UInt8).toNat = 128 := rfl
    have hhigh : (0xBF : UInt8).toNat = 191 := rfl
    omega
  unfold String.utf8EncodeChar
  generalize c.val.toNat = v at hchar hvalid
  have hjoin : v / 64 * 64 + v % 64 = v := Nat.div_add_mod' v 64
  dsimp only
  -- By the number of bytes: each byte after the first adds six bits to the value.
  split
  · simp only [List.cons_append, List.nil_append, decodeFrom, hstart, feedStart_one v (by omega),
      hchar]
  split
  · have hquotient : v / 64 % 32 = v / 64 := by omega
    rw [hquotient]
    simp only [List.cons_append, List.nil_append, decodeFrom, hstart,
      feedStart_two (v / 64) (by omega) (by omega), feed_last (hany v).1 (hany v).2, hjoin, hchar]
  have hjoin' : v / 4096 * 64 + v / 64 % 64 = v / 64 := by omega
  split
  · have hquotient : v / 4096 % 16 = v / 4096 := by omega
    have hlow : (if v / 4096 = 0 then 0xA0 else 0x80 : UInt8).toNat ≤ v / 64 % 64 + 128 := by
      split <;> simp only [UInt8.reduceToNat] <;> omega
    have hhigh : v / 64 % 64 + 128 ≤ (if v / 4096 = 13 then 0x9F else 0xBF : UInt8).toNat := by
      split <;> simp only [UInt8.reduceToNat] <;> omega
    rw [hquotient]
    simp only [List.cons_append, List.nil_append, decodeFrom, hstart,
      feedStart_three (v / 4096) (by omega), feed_more hlow hhigh, hjoin',
      feed_last (hany v).1 (hany v).2, hjoin, hchar]
  · have hquotient : v / 262144 % 8 = v / 262144 := by omega
    have hlow : (if v / 262144 = 0 then 0x90 else 0x80 : UInt8).toNat ≤ v / 4096 % 64 + 128 := by
      split <;> simp only [UInt8.reduceToNat] <;> omega
    have hhigh : v / 4096 % 64 + 128 ≤ (if v / 262144 = 4 then 0x8F else 0xBF : UInt8).toNat := by
      split <;> simp only [UInt8.reduceToNat] <;> omega
    have hjoin'' : v / 262144 * 64 + v / 4096 % 64 = v / 4096 := by omega
    rw [hquotient]
    simp only [List.cons_append, List.nil_append, decodeFrom, hstart,
      feedStart_four (v / 262144) (by omega), feed_more hlow hhigh, hjoin'',
      feed_more (hany (v / 64)).1 (hany (v / 64)).2, hjoin', feed_last (hany v).1 (hany v).2,
      hjoin, hchar]

/-- A text that was encoded is read back, whatever bytes come after it. -/
theorem decodeFrom_encode (t : Text) (rest : List UInt8) :
    decodeFrom .start (encode t ++ rest) = t ++ decodeFrom .start rest := by
  induction t with
  | nil => rfl
  | cons c t ih =>
      have hfirst : encode (c :: t) = String.utf8EncodeChar c ++ encode t := List.flatMap_cons
      rw [hfirst, List.append_assoc, decodeFrom_encodeChar, ih, List.cons_append]

/-- **Text that was encoded is decoded as itself**: no character of it is replaced, whatever it
is. -/
theorem decodeLossy_encode (t : Text) : decodeLossy (encode t) = t := by
  have hread := decodeFrom_encode t []
  rwa [List.append_nil, decodeFrom, finish, List.append_nil] at hread

/-- A byte that stands for itself comes from its own character only, which is written as that
byte. -/
theorem encodeChar_of_mem {c : Char} {b : UInt8} (hb : b.toNat < 128)
    (h : b ∈ String.utf8EncodeChar c) : c.toNat = b.toNat ∧ String.utf8EncodeChar c = [b] := by
  have hlarge : ∀ n < 256, 128 ≤ n → b ≠ UInt8.ofNat n := by
    rintro n hn hn' rfl
    rw [UInt8.toNat_ofNat', Nat.mod_eq_of_lt hn] at hb
    omega
  have hvalue : c.toNat = c.val.toNat := rfl
  unfold String.utf8EncodeChar at h ⊢
  rw [hvalue]
  generalize c.val.toNat = v at h ⊢
  dsimp only at h ⊢
  split at h
  · next hsmall =>
      rw [if_pos hsmall]
      obtain rfl := List.mem_singleton.mp h
      refine ⟨?_, rfl⟩
      rw [UInt8.toNat_ofNat', Nat.mod_eq_of_lt (by omega)]
  · exfalso
    split at h
    · simp only [List.mem_cons, List.not_mem_nil, or_false] at h
      rcases h with h | h <;> exact hlarge _ (by omega) (by omega) h
    split at h
    · simp only [List.mem_cons, List.not_mem_nil, or_false] at h
      rcases h with h | h | h <;> exact hlarge _ (by omega) (by omega) h
    · simp only [List.mem_cons, List.not_mem_nil, or_false] at h
      rcases h with h | h | h | h <;> exact hlarge _ (by omega) (by omega) h

/-- A byte below 128 in an encoded text comes from the character with this code, and is not a part
of another one. -/
theorem mem_of_mem_encode {t : Text} {b : UInt8} (hb : b.toNat < 128) (h : b ∈ encode t) :
    Char.ofNat b.toNat ∈ t := by
  obtain ⟨c, hc, hin⟩ := List.mem_flatMap.mp h
  have hvalue := (encodeChar_of_mem hb hin).1
  rwa [← hvalue, Char.ofNat_toNat]

end Utf8

namespace Text

/-! ## A blank at the end -/

variable {c : Char} (hc : isBlank c = true)

include hc

/-- A blank at the end of a text does not change its words, so a newline or a carriage return is of
no account there. -/
theorem words_append_blank (t : Text) : words (t ++ [c]) = words t := by
  induction t with
  | nil => exact words_blank hc []
  | cons d t ih =>
      have hgoes : continuesWord (t ++ [c]) = continuesWord t := by
        cases t with
        | nil => simp [continuesWord, hc]
        | cons e t => rfl
      rw [List.cons_append, words, words, hgoes, ih]

/-- A blank at the end of a text is taken off with the others there. -/
theorem trim_append_blank (t : Text) : trim (t ++ [c]) = trim t := by
  rw [trim, trim, List.dropWhile_append]
  cases hfront : t.dropWhile isBlank with
  | nil => simp [hc]
  | cons d front => simp [hc]

end Text

/-- A line is the same command with one more blank at its end. -/
theorem Command.parse_append_blank {c : Char} (hc : Text.isBlank c = true) (line : Text) :
    Command.parse (line ++ [c]) = Command.parse line := by
  funext pid allowBackground
  rw [Command.parse, Command.parse, Text.words_append_blank hc, Text.trim_append_blank hc]

namespace LineReader

/-! ## Lines -/

/-- A text is read back but for a carriage return at its end. -/
theorem lineText_encode (t : Text) :
    lineText (Utf8.encode t) = t ∨
      ∃ front, t = front ++ ['\r'] ∧ lineText (Utf8.encode t) = front := by
  cases t using List.reverseRecOn with
  | nil => exact .inl rfl
  | append_singleton front c =>
      have hsplit : Utf8.encode (front ++ [c]) = Utf8.encode front ++ String.utf8EncodeChar c := by
        simp [Utf8.encode]
      by_cases hc : c = '\r'
      · subst hc
        refine .inr ⟨front, rfl, ?_⟩
        have hdropped : dropReturn (Utf8.encode (front ++ ['\r'])) = Utf8.encode front := by
          have hreturn : String.utf8EncodeChar '\r' = [carriageReturn] := by decide
          rw [hsplit, hreturn, dropReturn, List.getLast?_concat, if_pos rfl, List.dropLast_concat]
        rw [lineText, hdropped, Utf8.decodeLossy_encode]
      · have hkept : dropReturn (Utf8.encode (front ++ [c])) = Utf8.encode (front ++ [c]) := by
          rw [dropReturn, if_neg]
          rw [hsplit, List.getLast?_append_of_ne_nil _ String.utf8EncodeChar_ne_nil]
          intro hlast
          have hvalue := (Utf8.encodeChar_of_mem (by decide) (List.mem_of_getLast? hlast)).1
          exact hc (Char.toNat_inj.mp hvalue)
        exact .inl (by rw [lineText, hkept, Utf8.decodeLossy_encode])

/-- **A line that is written down is read back as the same command.**  If the text holds no newline,
a file that holds just the text has one line, or none if the text is empty and there is no newline
at the end of the file either. -/
theorem linesOf_encode {t : Text} {bytes : List UInt8} (ht : '\n' ∉ t)
    (hbytes : bytes = Utf8.encode t ∨ bytes = Utf8.encode t ++ [newline]) :
    (t = [] ∧ linesOf bytes = []) ∨
      ∃ line, linesOf bytes = [line] ∧ Command.parse line = Command.parse t := by
  have hnone : newline ∉ Utf8.encode t := fun hin => ht (Utf8.mem_of_mem_encode (by decide) hin)
  have hread : Command.parse (lineText (Utf8.encode t)) = Command.parse t := by
    rcases lineText_encode t with hsame | ⟨front, rfl, hfront⟩
    · rw [hsame]
    · rw [hfront, Command.parse_append_blank (by decide)]
  have hone : pieces bytes = [Utf8.encode t] →
      ∃ line, linesOf bytes = [line] ∧ Command.parse line = Command.parse t := by
    intro hpieces
    refine ⟨lineText (Utf8.encode t), ?_, hread⟩
    rw [linesOf, hpieces, List.map_singleton, lineText_eq]
  rcases hbytes with rfl | rfl
  · cases t with
    | nil => exact .inl ⟨rfl, rfl⟩
    | cons c t =>
        have hsome : Utf8.encode (c :: t) ≠ [] := by
          simp [Utf8.encode, String.utf8EncodeChar_ne_nil]
        exact .inr (hone (pieces_of_notMem hnone hsome))
  · refine .inr (hone ?_)
    rw [pieces_append hnone, pieces_nil]

end LineReader

end Conch
