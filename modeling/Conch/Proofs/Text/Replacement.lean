import Conch.Proofs.Text.Encoding

/-!
# Bytes that are no text

Any bytes can be read.  Where a character stands, it is read as itself.  Where none does, the
longest part that begins a character is read as one replacement character, or a single byte if there
is no such part, and reading goes on behind it (`Reading`).

The decoder does not look ahead for that part.  It goes byte by byte, and finds out that something
is wrong when it meets a byte that it does not wait for.  `Awaits` is the invariant that tells what
it has read by then: the front of a character, which whatever it waits for completes, so nothing
longer is the front of one.

* `reading_iff`: the decoder follows the rule, and the rule leaves no choice;
* `count_decodeLossy`: decoding neither swallows nor makes up a character of one byte;
* `decodeLossy_within`: text is read as it is, wherever it stands, and decoding starts anew at it.
-/

namespace Conch.Utf8

/-! ## The rule -/

/-- The bytes are the front of a character, or all of it. -/
def Begins (part : List UInt8) : Prop :=
  part ≠ [] ∧ ∃ c, part <+: String.utf8EncodeChar c

/-- The part at the front of the bytes counts as one fault: no character stands there, the part
begins a character or is a single byte, and no longer part does. -/
structure IsMaximalSubpart (part bytes : List UInt8) : Prop where
  unreadable : ∀ c, ¬ String.utf8EncodeChar c <+: bytes
  front : part <+: bytes
  counts : Begins part ∨ part.length = 1
  longest : ∀ other, other <+: bytes → Begins other ∨ other.length = 1 →
    other.length ≤ part.length

/-- The text that bytes are read as: a character is read as itself, and what is no character is
replaced, one maximal part at a time. -/
inductive Reading : List UInt8 → Text → Prop where
  | nil : Reading [] []
  | character (c : Char) {rest : List UInt8} {t : Text} (hrest : Reading rest t) :
      Reading (String.utf8EncodeChar c ++ rest) (c :: t)
  | fault {part rest : List UInt8} {t : Text} (hpart : IsMaximalSubpart part (part ++ rest))
      (hrest : Reading rest t) : Reading (part ++ rest) (replacement :: t)

/-! ## Characters -/

/-- A character below 128 is encoded as the one byte with its number. -/
theorem encodeChar_ofNat {n : Nat} (hn : n < 128) :
    String.utf8EncodeChar (Char.ofNat n) = [UInt8.ofNat n] := by
  have hvalid : n.isValidChar := .inl (by omega)
  have hchar : Char.ofNat n = Char.ofNatAux n hvalid := dif_pos hvalid
  rw [hchar]
  exact if_pos (Nat.le_of_lt_succ hn)

/-- No character begins another one: its first byte tells how long it is. -/
theorem eq_of_encodeChar_prefix {c d : Char}
    (h : String.utf8EncodeChar c <+: String.utf8EncodeChar d) : c = d := by
  obtain ⟨more, hmore⟩ := h
  have hc := decodeFrom_encodeChar c more
  have hd := decodeFrom_encodeChar d []
  rw [List.append_nil, ← hmore, hc] at hd
  exact (List.cons.inj hd).1

section Sequences

variable {n m m' m'' : Nat}

/-- Every code that is allowed is that of a character. -/
theorem exists_of_isValidChar (hn : n.isValidChar) : ∃ c : Char, c.val.toNat = n :=
  ⟨Char.ofNatAux n hn, rfl⟩

/-- Two bytes of the right form are a character unless one byte would do for it. -/
theorem exists_two (hn : n < 32) (hlow : 2 ≤ n) (hm : m < 64) : ∃ c,
    String.utf8EncodeChar c = [UInt8.ofNat (n + 192), UInt8.ofNat (m + 128)] := by
  have hvalid : (n * 64 + m).isValidChar := .inl (by omega)
  obtain ⟨c, hc⟩ := exists_of_isValidChar hvalid
  have hfirst : (n * 64 + m) / 64 % 32 = n := by omega
  have hsecond : (n * 64 + m) % 64 = m := by omega
  refine ⟨c, ?_⟩
  unfold String.utf8EncodeChar
  rw [hc]
  dsimp only
  rw [if_neg (by omega), if_pos (by omega), hfirst, hsecond]

/-- Three bytes are a character unless fewer would do, or it is a surrogate. -/
theorem exists_three (hn : n < 16) (hm : m < 64) (hm' : m' < 64)
    (hlow : n = 0 → 32 ≤ m) (hhigh : n = 13 → m < 32) : ∃ c, String.utf8EncodeChar c =
      [UInt8.ofNat (n + 224), UInt8.ofNat (m + 128), UInt8.ofNat (m' + 128)] := by
  have hvalid : ((n * 64 + m) * 64 + m').isValidChar := by
    rw [Nat.isValidChar]
    omega
  obtain ⟨c, hc⟩ := exists_of_isValidChar hvalid
  have hfirst : ((n * 64 + m) * 64 + m') / 4096 % 16 = n := by omega
  have hsecond : ((n * 64 + m) * 64 + m') / 64 % 64 = m := by omega
  have hthird : ((n * 64 + m) * 64 + m') % 64 = m' := by omega
  refine ⟨c, ?_⟩
  unfold String.utf8EncodeChar
  rw [hc]
  dsimp only
  rw [if_neg (by omega), if_neg (by omega), if_pos (by omega), hfirst, hsecond, hthird]

/-- Four bytes are a character unless fewer would do, or it is too large. -/
theorem exists_four (hn : n < 5) (hm : m < 64) (hm' : m' < 64) (hm'' : m'' < 64)
    (hlow : n = 0 → 16 ≤ m) (hhigh : n = 4 → m < 16) : ∃ c, String.utf8EncodeChar c =
      [UInt8.ofNat (n + 240), UInt8.ofNat (m + 128), UInt8.ofNat (m' + 128),
        UInt8.ofNat (m'' + 128)] := by
  have hvalid : (((n * 64 + m) * 64 + m') * 64 + m'').isValidChar := by
    rw [Nat.isValidChar]
    omega
  obtain ⟨c, hc⟩ := exists_of_isValidChar hvalid
  have hfirst : (((n * 64 + m) * 64 + m') * 64 + m'') / 262144 % 8 = n := by omega
  have hsecond : (((n * 64 + m) * 64 + m') * 64 + m'') / 4096 % 64 = m := by omega
  have hthird : (((n * 64 + m) * 64 + m') * 64 + m'') / 64 % 64 = m' := by omega
  have hfourth : (((n * 64 + m) * 64 + m') * 64 + m'') % 64 = m'' := by omega
  refine ⟨c, ?_⟩
  unfold String.utf8EncodeChar
  rw [hc]
  dsimp only
  rw [if_neg (by omega), if_neg (by omega), if_neg (by omega), hfirst, hsecond, hthird, hfourth]

end Sequences

/-! ## Inside a character -/

/-- To decode bytes is to feed the first one to the decoder and to decode the others from the state
that this leads to. -/
theorem decodeFrom_cons (state : State) (b : UInt8) (rest : List UInt8) :
    decodeFrom state (b :: rest) = (feed state b).1 ++ decodeFrom (feed state b).2 rest := rfl

/-- A byte that begins a longer character is not yet decoded as anything, and leads to the state
inside of it. -/
theorem decodeFrom_begun {b : UInt8} {state : State} (hb : feedStart b = ([], state))
    (rest : List UInt8) : decodeFrom .start ([b] ++ rest) = decodeFrom state rest := by
  rw [List.singleton_append, decodeFrom_cons, feed, hb, List.nil_append]

/-- A byte that cannot go on with a character is read again after it. -/
theorem decodeFrom_refused {owed : Nat} {low high b : UInt8} {value : Nat}
    (hb : ¬ (low ≤ b ∧ b ≤ high)) (rest : List UInt8) :
    decodeFrom (.inside owed low high value) (b :: rest) =
      replacement :: decodeFrom .start (b :: rest) := by
  have hrange : (decide (low ≤ b) && decide (b ≤ high)) = false := by simpa using hb
  rw [decodeFrom_cons, decodeFrom_cons]
  simp only [feed, hrange, Bool.false_eq_true, if_false]
  rfl

/-- What is begun is settled in the end, by a character or by a replacement, also if no byte comes
any more. -/
theorem decodeFrom_inside_ne_nil (owed : Nat) (low high : UInt8) (value : Nat)
    (bytes : List UInt8) : decodeFrom (.inside owed low high value) bytes ≠ [] := by
  induction bytes generalizing owed low high value with
  | nil => exact List.cons_ne_nil replacement []
  | cons b bytes ih =>
      by_cases hb : low ≤ b ∧ b ≤ high
      · rw [decodeFrom_cons]
        cases owed with
        | zero => simp [feed, hb.1, hb.2]
        | succ owed => simpa [feed, hb.1, hb.2] using ih owed _ _ _
      · rw [decodeFrom_refused hb]
        exact List.cons_ne_nil _ _

/-- Bytes that begin no character are replaced at once: those that go on with one, and those that no
character has. -/
theorem feedStart_stray : ∀ n < 256, n = 192 ∨ n = 193 ∨ 128 ≤ n ∧ n < 192 ∨ 245 ≤ n →
    feedStart (UInt8.ofNat n) = ([replacement], .start) := by
  decide +kernel

/-! ### The front of a character -/

/-- The decoder has read a part of a character and is in this state, in which it waits for the rest
of it; and whatever it waits for completes the character. -/
structure Awaits (part : List UInt8) (owed : Nat) (low high : UInt8) (value : Nat) : Prop where
  some : part ≠ []
  range : 128 ≤ low.toNat ∧ low.toNat ≤ high.toNat ∧ high.toNat < 192
  reads : ∀ rest,
    decodeFrom .start (part ++ rest) = decodeFrom (.inside owed low high value) rest
  completes : ∀ m more, low.toNat ≤ m + 128 → m + 128 ≤ high.toNat → more.length = owed →
    (∀ d ∈ more, d < 64) →
    ∃ c, String.utf8EncodeChar c = part ++ (m :: more).map fun d => UInt8.ofNat (d + 128)

/-- After the first byte of a character of two bytes the decoder waits for any byte from 128 to
191. -/
theorem awaits_two {n : Nat} (hn : n < 32) (hlow : 2 ≤ n) :
    Awaits [UInt8.ofNat (n + 192)] 0 0x80 0xBF n where
  some := List.cons_ne_nil _ _
  range := by decide
  reads := decodeFrom_begun (feedStart_two n hn hlow)
  completes := by
    intro m more hm hm' hlength _
    obtain rfl := List.eq_nil_of_length_eq_zero hlength
    simp only [UInt8.reduceToNat] at hm'
    exact exists_two hn hlow (by omega)

/-- After the first byte of a character of three bytes the decoder waits for two more.  The first of
them is bounded so that the code is neither too small for three bytes nor one of a surrogate. -/
theorem awaits_three {n : Nat} (hn : n < 16) :
    Awaits [UInt8.ofNat (n + 224)] 1 (if n = 0 then 0xA0 else 0x80)
      (if n = 13 then 0x9F else 0xBF) n where
  some := List.cons_ne_nil _ _
  range := by
    revert n
    decide
  reads := decodeFrom_begun (feedStart_three n hn)
  completes := by
    intro m more hm hm' hlength hmore
    obtain ⟨m', rfl⟩ := List.length_eq_one_iff.mp hlength
    refine exists_three hn ?_ (hmore m' List.mem_cons_self) ?_ ?_
    · split at hm' <;> simp only [UInt8.reduceToNat] at hm' <;> omega
    · rintro rfl
      simp at hm
      omega
    · rintro rfl
      simp at hm'
      omega

/-- After the first byte of a character of four bytes the decoder waits for three more.  The first
of them is bounded so that the code is neither too small for four bytes nor too large for a
character. -/
theorem awaits_four {n : Nat} (hn : n < 5) :
    Awaits [UInt8.ofNat (n + 240)] 2 (if n = 0 then 0x90 else 0x80)
      (if n = 4 then 0x8F else 0xBF) n where
  some := List.cons_ne_nil _ _
  range := by
    revert n
    decide
  reads := decodeFrom_begun (feedStart_four n hn)
  completes := by
    intro m more hm hm' hlength hmore
    obtain ⟨m', m'', rfl⟩ := List.length_eq_two.mp hlength
    refine exists_four hn ?_ (hmore m' List.mem_cons_self) (hmore m'' (by simp)) ?_ ?_
    · split at hm' <;> simp only [UInt8.reduceToNat] at hm' <;> omega
    · rintro rfl
      simp at hm
      omega
    · rintro rfl
      simp at hm'
      omega

/-- A byte between two characters is a character, or begins one, or does neither. -/
theorem first_byte_cases (b : UInt8) :
    String.utf8EncodeChar (Char.ofNat b.toNat) = [b] ∨
    (∃ owed low high value, Awaits [b] owed low high value) ∨
    feedStart b = ([replacement], .start) := by
  have hback : UInt8.ofNat b.toNat = b := UInt8.ofNat_toNat
  have hsize := b.toNat_lt
  generalize b.toNat = n at hback hsize
  subst hback
  by_cases hone : n < 128
  · exact .inl (encodeChar_ofNat hone)
  by_cases htwo : 194 ≤ n ∧ n < 224
  · have hawaits := awaits_two (n := n - 192) (by omega) (by omega)
    rw [Nat.sub_add_cancel (by omega)] at hawaits
    exact .inr (.inl ⟨_, _, _, _, hawaits⟩)
  by_cases hthree : 224 ≤ n ∧ n < 240
  · have hawaits := awaits_three (n := n - 224) (by omega)
    rw [Nat.sub_add_cancel hthree.1] at hawaits
    exact .inr (.inl ⟨_, _, _, _, hawaits⟩)
  by_cases hfour : 240 ≤ n ∧ n < 245
  · have hawaits := awaits_four (n := n - 240) (by omega)
    rw [Nat.sub_add_cancel hfour.1] at hawaits
    exact .inr (.inl ⟨_, _, _, _, hawaits⟩)
  · exact .inr (.inr (feedStart_stray n hsize (by omega)))

/-- Bytes are not decoded as nothing: a character or a replacement stands for them. -/
theorem decodeFrom_start_ne_nil (b : UInt8) (rest : List UInt8) :
    decodeFrom .start (b :: rest) ≠ [] := by
  rcases first_byte_cases b with hchar | ⟨owed, low, high, value, hawaits⟩ | hstray
  · have hread := decodeFrom_encodeChar (Char.ofNat b.toNat) rest
    rw [hchar, List.singleton_append] at hread
    rw [hread]
    exact List.cons_ne_nil _ _
  · have hread := hawaits.reads rest
    rw [List.singleton_append] at hread
    rw [hread]
    exact decodeFrom_inside_ne_nil owed low high value rest
  · rw [decodeFrom_cons, feed, hstray]
    exact List.cons_ne_nil _ _

namespace Awaits

variable {part : List UInt8} {owed : Nat} {low high b : UInt8} {value : Nat}

/-- A byte that is waited for is one of those from 128 to 191, of which the last six bits count. -/
theorem byte_eq (h : Awaits part owed low high value) (hb : low ≤ b ∧ b ≤ high) :
    b = UInt8.ofNat (b.toNat - 128 + 128) ∧ low.toNat ≤ b.toNat - 128 + 128 ∧
      b.toNat - 128 + 128 ≤ high.toNat := by
  have hlow := UInt8.le_iff_toNat_le.mp hb.1
  have hhigh := UInt8.le_iff_toNat_le.mp hb.2
  have hback : b.toNat - 128 + 128 = b.toNat := Nat.sub_add_cancel (h.range.1.trans hlow)
  rw [hback, UInt8.ofNat_toNat]
  exact ⟨rfl, hlow, hhigh⟩

/-- The last byte that is waited for completes the character, whichever of them it is. -/
theorem last (h : Awaits part 0 low high value) (hb : low ≤ b ∧ b ≤ high) :
    ∃ c, String.utf8EncodeChar c = part ++ [b] := by
  obtain ⟨hbyte, hlow, hhigh⟩ := h.byte_eq hb
  obtain ⟨c, hc⟩ := h.completes _ [] hlow hhigh rfl (by simp)
  refine ⟨c, ?_⟩
  rw [hc, List.map_singleton, ← hbyte]

/-- After another byte the decoder waits for one byte less. -/
theorem next (h : Awaits part (owed + 1) low high value) (hb : low ≤ b ∧ b ≤ high) :
    Awaits (part ++ [b]) owed 0x80 0xBF (value * 64 + (b.toNat - 0x80)) where
  some := by simp
  range := by decide
  reads := by
    intro rest
    rw [List.append_assoc, List.singleton_append, h.reads, decodeFrom_cons]
    simp [feed, hb.1, hb.2]
  completes := by
    intro m more _ hm hlength hmore
    obtain ⟨hbyte, hlow, hhigh⟩ := h.byte_eq hb
    simp only [UInt8.reduceToNat] at hm
    obtain ⟨c, hc⟩ := h.completes _ (m :: more) hlow hhigh (by simpa using hlength) (by
      rw [List.forall_mem_cons]
      exact ⟨by omega, hmore⟩)
    refine ⟨c, ?_⟩
    rw [hc, List.map_cons, ← hbyte, List.append_assoc, List.singleton_append]

/-- What was read is the front of a character, and not all of it. -/
theorem proper (h : Awaits part owed low high value) :
    ∃ c more, more ≠ [] ∧ String.utf8EncodeChar c = part ++ more := by
  have hback : low.toNat - 128 + 128 = low.toNat := Nat.sub_add_cancel h.range.1
  obtain ⟨c, hc⟩ := h.completes (low.toNat - 128) (List.replicate owed 0) hback.ge
    (hback.le.trans h.range.2.1) List.length_replicate (by simp)
  exact ⟨c, _, List.cons_ne_nil _ _, hc⟩

/-- Any other byte than those that are waited for does not go on with a character. -/
theorem not_begins (h : Awaits part owed low high value) (hb : ¬ (low ≤ b ∧ b ≤ high)) :
    ¬ Begins (part ++ [b]) := by
  rintro ⟨-, c, more, hc⟩
  have hone := decodeFrom_encodeChar c []
  rw [List.append_nil, ← hc, List.append_assoc, h.reads, List.singleton_append,
    decodeFrom_refused hb] at hone
  exact decodeFrom_start_ne_nil b more (List.cons.inj hone).2

section Stuck

variable (h : Awaits part owed low high value) {rest : List UInt8}
  (hstuck : ∀ b ∈ rest.head?, ¬ (low ≤ b ∧ b ≤ high))

include h hstuck

/-- If what comes next does not go on with a character, nothing longer begins one. -/
theorem not_begins_of_longer {other : List UInt8} (hother : other <+: part ++ rest)
    (hlength : part.length < other.length) : ¬ Begins other := by
  rintro ⟨-, c, hc⟩
  obtain ⟨more, rfl⟩ :=
    List.prefix_of_prefix_length_le (List.prefix_append part rest) hother hlength.le
  rw [List.prefix_append_right_inj] at hother
  cases more with
  | nil => simp at hlength
  | cons b more =>
      obtain ⟨rest, rfl⟩ := hother
      have hfront : part ++ [b] <+: part ++ b :: more := ⟨more, by simp⟩
      exact h.not_begins (hstuck b rfl) ⟨by simp, c, hfront.trans hc⟩

/-- When the byte that comes is not one that is waited for, no character stands at the front of the
bytes. -/
theorem unreadable (c : Char) : ¬ String.utf8EncodeChar c <+: part ++ rest := by
  intro hc
  by_cases hlength : part.length < (String.utf8EncodeChar c).length
  · exact h.not_begins_of_longer hstuck hc hlength
      ⟨String.utf8EncodeChar_ne_nil, c, List.prefix_rfl⟩
  · -- A character within the part would begin the one that the part begins.
    obtain ⟨d, more, hmore, hd⟩ := h.proper
    have hwithin : String.utf8EncodeChar c <+: part :=
      List.prefix_of_prefix_length_le hc (List.prefix_append part rest) (not_lt.mp hlength)
    obtain rfl := eq_of_encodeChar_prefix (hwithin.trans ⟨more, hd.symm⟩)
    have hlonger := congrArg List.length hd
    have hsome := List.length_pos_iff.mpr hmore
    rw [List.length_append] at hlonger
    omega

/-- **The part that was read is one fault** if what comes next does not go on with a character. -/
theorem isMaximalSubpart : IsMaximalSubpart part (part ++ rest) := by
  obtain ⟨d, more, -, hd⟩ := h.proper
  refine ⟨h.unreadable hstuck, List.prefix_append part rest, .inl ⟨h.some, d, more, hd.symm⟩, ?_⟩
  intro other hother hcounts
  by_contra hlength
  rw [not_le] at hlength
  rcases hcounts with hbegins | hone
  · exact h.not_begins_of_longer hstuck hother hlength hbegins
  · have hsome := List.length_pos_iff.mpr h.some
    omega

end Stuck

/-- From inside a character the decoder comes to its end, or to the end of a fault. -/
theorem outcome (h : Awaits part owed low high value) (rest : List UInt8) :
    (∃ c more, part ++ rest = String.utf8EncodeChar c ++ more) ∨
    ∃ front more, rest = front ++ more ∧ IsMaximalSubpart (part ++ front) (part ++ rest) ∧
      decodeFrom .start (part ++ rest) = replacement :: decodeFrom .start more := by
  induction rest generalizing part owed low high value with
  | nil =>
      refine .inr ⟨[], [], rfl, ?_, h.reads []⟩
      have hend : IsMaximalSubpart part (part ++ []) := h.isMaximalSubpart (by simp)
      simpa using hend
  | cons b rest ih =>
      by_cases hb : low ≤ b ∧ b ≤ high
      · cases owed with
        | zero =>
            obtain ⟨c, hc⟩ := h.last hb
            exact .inl ⟨c, rest, by rw [hc, List.append_assoc, List.singleton_append]⟩
        | succ owed =>
            have hnext := ih (h.next hb)
            rw [List.append_assoc, List.singleton_append] at hnext
            rcases hnext with hchar | ⟨front, more, rfl, hpart, hread⟩
            · exact .inl hchar
            · rw [List.append_assoc, List.singleton_append] at hpart
              exact .inr ⟨b :: front, more, rfl, hpart, hread⟩
      · refine .inr ⟨[], b :: rest, rfl, ?_, ?_⟩
        · rw [List.append_nil]
          exact h.isMaximalSubpart (by simpa using hb)
        · rw [h.reads, decodeFrom_refused hb]

end Awaits

/-! ## The decoder and the rule -/

/-- The character that replaces what cannot be read is not encoded as a single byte. -/
theorem encodeChar_replacement_ne (b : UInt8) : String.utf8EncodeChar replacement ≠ [b] := by
  have hlength : (String.utf8EncodeChar replacement).length = 3 := by decide
  intro h
  rw [h] at hlength
  cases hlength

/-- A byte that begins no character is one fault by itself. -/
theorem isMaximalSubpart_of_stray {b : UInt8} (hb : feedStart b = ([replacement], .start))
    (rest : List UInt8) : IsMaximalSubpart [b] (b :: rest) := by
  have hnone : ∀ c more, String.utf8EncodeChar c ≠ b :: more := by
    intro c more hc
    have hread := decodeFrom_encodeChar c []
    rw [List.append_nil, hc, decodeFrom_cons, feed, hb] at hread
    obtain ⟨hreplaced, hmore⟩ := List.cons.inj hread
    cases more with
    | nil =>
        rw [← hreplaced] at hc
        exact encodeChar_replacement_ne b hc
    | cons d more => exact decodeFrom_start_ne_nil d more hmore
  refine ⟨?_, ⟨rest, rfl⟩, .inr rfl, ?_⟩
  · intro c hc
    rcases List.prefix_cons_iff.mp hc with hnil | ⟨more, hmore, -⟩
    · exact String.utf8EncodeChar_ne_nil hnil
    · exact hnone c more hmore
  · intro other hother hcounts
    rcases hcounts with ⟨hsome, c, hc⟩ | hone
    · rcases List.prefix_cons_iff.mp hother with hnil | ⟨front, rfl, -⟩
      · exact absurd hnil hsome
      · obtain ⟨more, hmore⟩ := hc
        exact absurd hmore.symm (hnone c _)
    · exact hone.le

/-- The decoder reads the character that stands first or else replaces one maximal part. -/
theorem decodeFrom_step (b : UInt8) (rest : List UInt8) :
    (∃ c more, b :: rest = String.utf8EncodeChar c ++ more) ∨
    ∃ part more, b :: rest = part ++ more ∧ IsMaximalSubpart part (b :: rest) ∧
      decodeFrom .start (b :: rest) = replacement :: decodeFrom .start more := by
  rcases first_byte_cases b with hchar | ⟨owed, low, high, value, hawaits⟩ | hstray
  · exact .inl ⟨_, rest, by rw [hchar, List.singleton_append]⟩
  · rcases hawaits.outcome rest with hchar | ⟨front, more, rfl, hpart, hread⟩
    · exact .inl hchar
    · exact .inr ⟨_, more, rfl, hpart, hread⟩
  · refine .inr ⟨[b], rest, rfl, isMaximalSubpart_of_stray hstray rest, ?_⟩
    rw [decodeFrom_cons, feed, hstray]
    rfl

/-- A part that counts as one fault has a byte, so that the decoder gets on by replacing it. -/
theorem IsMaximalSubpart.ne_nil {part bytes : List UInt8} (h : IsMaximalSubpart part bytes) :
    part ≠ [] := by
  rcases h.counts with hbegins | hone
  · exact hbegins.1
  · rintro rfl
    exact absurd hone (by decide)

/-- There is no choice of what to replace: the bytes have one part at most that counts as a
fault. -/
theorem IsMaximalSubpart.eq {part part' bytes : List UInt8} (h : IsMaximalSubpart part bytes)
    (h' : IsMaximalSubpart part' bytes) : part = part' := by
  have hlength : part.length = part'.length :=
    Nat.le_antisymm (h'.longest part h.front h.counts) (h.longest part' h'.front h'.counts)
  exact (List.prefix_of_prefix_length_le h.front h'.front hlength.le).eq_of_length hlength

/-- Where a maximal part is to be replaced the decoder does so. -/
theorem decodeLossy_fault {part rest : List UInt8} (h : IsMaximalSubpart part (part ++ rest)) :
    decodeLossy (part ++ rest) = replacement :: decodeLossy rest := by
  obtain ⟨b, front, rfl⟩ := List.exists_cons_of_ne_nil h.ne_nil
  rcases decodeFrom_step b (front ++ rest) with
    ⟨c, more, hchar⟩ | ⟨part', more, hsplit, hpart, hread⟩
  · exact absurd ⟨more, hchar.symm⟩ (h.unreadable c)
  · obtain rfl := h.eq hpart
    have hsame : (b :: front) ++ rest = (b :: front) ++ more := hsplit
    obtain rfl := List.append_cancel_left hsame
    exact hread

/-- **The decoder follows the rule** for replacing what cannot be read, on any bytes. -/
theorem reading_decodeLossy (bytes : List UInt8) : Reading bytes (decodeLossy bytes) := by
  -- The induction is on the number of bytes, of which each step reads some.
  induction hsize : bytes.length using Nat.strongRecOn generalizing bytes with
  | ind size ih =>
      cases bytes with
      | nil => exact .nil
      | cons b rest =>
          rcases decodeFrom_step b rest with ⟨c, more, hchar⟩ | ⟨part, more, hsplit, hpart, hread⟩
          · have hlength := congrArg List.length hchar
            have hsome := List.length_pos_iff.mpr (String.utf8EncodeChar_ne_nil (c := c))
            rw [List.length_append] at hlength
            have hrest := ih more.length (by omega) more rfl
            rw [hchar, decodeLossy, decodeFrom_encodeChar]
            exact .character c hrest
          · have hlength := congrArg List.length hsplit
            have hsome := List.length_pos_iff.mpr hpart.ne_nil
            rw [List.length_append] at hlength
            have hrest := ih more.length (by omega) more rfl
            rw [decodeLossy, hread, hsplit]
            rw [hsplit] at hpart
            exact .fault hpart hrest

/-- **The rule and the decoder agree**: any bytes have exactly one reading, and it is what they are
decoded to. -/
theorem reading_iff {bytes : List UInt8} {t : Text} :
    Reading bytes t ↔ t = decodeLossy bytes := by
  constructor
  · intro h
    induction h with
    | nil => rfl
    | character c _ ih => rw [decodeLossy, decodeFrom_encodeChar, ih, decodeLossy]
    | fault hpart _ ih => rw [decodeLossy_fault hpart, ih]
  · rintro rfl
    exact reading_decodeLossy bytes

/-! ## What decoding keeps -/

/-- The byte of a character that is written as one byte is no part of a fault. -/
theorem IsMaximalSubpart.notMem {part bytes : List UInt8} (h : IsMaximalSubpart part bytes)
    {b : UInt8} (hb : b.toNat < 128) : b ∉ part := by
  have hchar : String.utf8EncodeChar (Char.ofNat b.toNat) = [b] := by
    rw [encodeChar_ofNat hb, UInt8.ofNat_toNat]
  intro hin
  have halone : part = [b] := by
    rcases h.counts with ⟨hsome, c, hc⟩ | hone
    · have hwhole := (encodeChar_of_mem hb (hc.subset hin)).2
      rw [hwhole] at hc
      obtain ⟨more, rfl, hmore⟩ := (List.prefix_cons_iff.mp hc).resolve_left hsome
      rw [List.prefix_nil.mp hmore]
    · obtain ⟨d, rfl⟩ := List.length_eq_one_iff.mp hone
      rw [List.mem_singleton.mp hin]
  apply h.unreadable (Char.ofNat b.toNat)
  rw [hchar, ← halone]
  exact h.front

/-- A byte below 128 occurs in a character only if it is all there is of it. -/
theorem count_encodeChar (c : Char) {b : UInt8} (hb : b.toNat < 128) :
    (String.utf8EncodeChar c).count b = [c].count (Char.ofNat b.toNat) := by
  by_cases hin : b ∈ String.utf8EncodeChar c
  · obtain ⟨hvalue, hwhole⟩ := encodeChar_of_mem hb hin
    rw [hwhole, ← hvalue, Char.ofNat_toNat]
    simp
  · have hother : Char.ofNat b.toNat ≠ c := by
      rintro rfl
      rw [encodeChar_ofNat hb, UInt8.ofNat_toNat] at hin
      exact hin (List.mem_singleton.mpr rfl)
    rw [List.count_eq_zero_of_not_mem hin, List.count_eq_zero_of_not_mem]
    simpa using hother

/-- **Decoding neither swallows nor makes up a character that is written as one byte.** -/
theorem count_decodeLossy (bytes : List UInt8) {b : UInt8} (hb : b.toNat < 128) :
    (decodeLossy bytes).count (Char.ofNat b.toNat) = bytes.count b := by
  have hread := reading_decodeLossy bytes
  generalize decodeLossy bytes = t at hread
  induction hread with
  | nil => rfl
  | character c _ ih =>
      rw [List.count_append, count_encodeChar c hb, ← ih, ← List.count_append,
        List.singleton_append]
  | fault hpart _ ih =>
      have hother : Char.ofNat b.toNat ≠ replacement := by
        intro heq
        have hwritten := encodeChar_ofNat hb
        rw [heq] at hwritten
        exact encodeChar_replacement_ne _ hwritten
      rw [List.count_append, List.count_eq_zero_of_not_mem (hpart.notMem hb),
        List.count_cons_of_ne (Ne.symm hother), ih, Nat.zero_add]

/-! ## Where decoding starts anew -/

/-- A byte that stands first in a character stands only first in one. -/
theorem eq_nil_of_first {c d : Char} {b : UInt8} {front more more' : List UInt8}
    (hc : String.utf8EncodeChar c = front ++ b :: more)
    (hd : String.utf8EncodeChar d = b :: more') : front = [] := by
  have hfirst := UInt8.isUTF8FirstByte_getElem_zero_utf8EncodeChar (c := d)
  simp only [hd, List.getElem_cons_zero] at hfirst
  have hlength : front.length < (String.utf8EncodeChar c).length := by simp [hc]
  have hplace : (String.utf8EncodeChar c)[front.length].IsUTF8FirstByte ↔ front.length = 0 :=
    UInt8.isUTF8FirstByte_getElem_utf8EncodeChar
  simp only [hc, List.getElem_append_right (Nat.le_refl _), Nat.sub_self,
    List.getElem_cons_zero] at hplace
  exact List.length_eq_zero_iff.mp (hplace.mp hfirst)

/-- What begins a character does not go on into the next one. -/
theorem Begins.prefix_left {bytes other more : List UInt8} {d : Char} (hother : Begins other)
    (hsome : bytes ≠ []) (h : other <+: bytes ++ (String.utf8EncodeChar d ++ more)) :
    other <+: bytes := by
  by_cases hlength : other.length ≤ bytes.length
  · exact List.prefix_of_prefix_length_le h (List.prefix_append _ _) hlength
  · exfalso
    obtain ⟨beyond, rfl⟩ :=
      List.prefix_of_prefix_length_le (List.prefix_append _ _) h (not_le.mp hlength).le
    rw [List.prefix_append_right_inj] at h
    obtain ⟨-, c, tail, hc⟩ := hother
    obtain ⟨b, rest, hd⟩ := List.exists_cons_of_ne_nil (String.utf8EncodeChar_ne_nil (c := d))
    cases beyond with
    | nil => simp at hlength
    | cons b' beyond =>
        rw [hd, List.cons_append, List.cons_prefix_cons] at h
        obtain ⟨rfl, -⟩ := h
        rw [List.append_assoc, List.cons_append] at hc
        exact hsome (eq_nil_of_first hc.symm hd)

/-- A character that comes later does not change what counts as a fault. -/
theorem IsMaximalSubpart.append {part bytes : List UInt8} (h : IsMaximalSubpart part bytes)
    (d : Char) (more : List UInt8) :
    IsMaximalSubpart part (bytes ++ (String.utf8EncodeChar d ++ more)) := by
  have hsome : bytes ≠ [] := by
    rintro rfl
    exact h.ne_nil (List.prefix_nil.mp h.front)
  refine ⟨?_, h.front.trans (List.prefix_append _ _), h.counts, ?_⟩
  · intro c hc
    have hbegins : Begins (String.utf8EncodeChar c) :=
      ⟨String.utf8EncodeChar_ne_nil, c, List.prefix_rfl⟩
    exact h.unreadable c (hbegins.prefix_left hsome hc)
  · intro other hother hcounts
    rcases hcounts with hbegins | hone
    · exact h.longest other (hbegins.prefix_left hsome hother) (.inl hbegins)
    · have hpart := List.length_pos_iff.mpr h.ne_nil
      omega

/-- **A character starts decoding anew**, whatever comes before it: a character that was begun is
replaced, and this one is read. -/
theorem decodeLossy_append_encodeChar (before : List UInt8) (d : Char) (more : List UInt8) :
    decodeLossy (before ++ (String.utf8EncodeChar d ++ more)) =
      decodeLossy before ++ d :: decodeLossy more := by
  have hread := reading_decodeLossy before
  generalize decodeLossy before = t at hread
  induction hread with
  | nil => exact decodeFrom_encodeChar d more
  | @character c rest t _ ih =>
      rw [List.append_assoc, decodeLossy, decodeFrom_encodeChar, List.cons_append, ← ih]
      rfl
  | @fault part rest t hpart _ ih =>
      have hstill := hpart.append d more
      rw [List.append_assoc] at hstill ⊢
      rw [decodeLossy_fault hstill, ih, List.cons_append]

/-- Text is read as it is, whatever stands before and after it. -/
theorem decodeLossy_within (before after : List UInt8) {t : Text} (ht : t ≠ []) :
    decodeLossy (before ++ (encode t ++ after)) =
      decodeLossy before ++ (t ++ decodeLossy after) := by
  obtain ⟨c, t, rfl⟩ := List.exists_cons_of_ne_nil ht
  have hfirst : encode (c :: t) = String.utf8EncodeChar c ++ encode t := List.flatMap_cons
  rw [hfirst, List.append_assoc, decodeLossy_append_encodeChar]
  congr 2
  exact decodeFrom_encode t after

end Conch.Utf8
