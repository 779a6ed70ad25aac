import Conch.Proofs.Command.Grammar

/-!
# Which word the program is

Expansion leaves the first word of a line alone, because that is where the program stands.  But the
redirections are taken out after the expansion, so on a line that begins with a redirection the
first word is a symbol, and the program is a later word and is expanded like any other
(`program_verbatim_iff`).  Redirections can be moved about between the other words without a change;
it is moving one to the front of the line, or away from it, that changes a program with a double
dollar sign in its name.
-/

namespace Conch

open Redirects (Part plainWords targets)
open Text (decimal Spaced spaced_iff)

namespace Sentence

variable (s : Sentence) (pid : UInt32)

/-- The word in the position of the program: the first that belongs to no redirection. -/
def programWord : Word :=
  (plainWords s.parts).head s.runs

/-- The line begins with that word, and not with a redirection. -/
def BeginsPlain : Prop :=
  ∀ w ∈ s.body.head?, Direction.ofWord? w = none

/-- The first word of a line is a symbol unless the line begins with its program. -/
theorem isSome_head_iff :
    (s.body.head?.bind Direction.ofWord?).isSome = true ↔ ¬ s.BeginsPlain := by
  obtain ⟨first, rest, hbody⟩ := List.exists_cons_of_ne_nil s.body_ne_nil
  rw [BeginsPlain, hbody]
  cases hfirst : Direction.ofWord? first with
  | none => simp [hfirst]
  | some d => simp [hfirst]

/-- The words of the command are the program, which is expanded only if the body begins with a
symbol, and the other plain words, which always are. -/
theorem argv_eq_cons {program : Word}
    (hprogram : program = if (s.body.head?.bind Direction.ofWord?).isSome
      then Expansion.expandWord (decimal pid.toNat) s.programWord else s.programWord) :
    s.argv pid = program ::
      (plainWords s.parts).tail.map (Expansion.expandWord (decimal pid.toNat)) := by
  obtain ⟨first, rest, hplain⟩ := List.exists_cons_of_ne_nil s.runs
  have hword : s.programWord = first := by simp only [programWord, hplain, List.head_cons]
  rw [hprogram, hword, argv, hplain]
  rfl

/-- A line that begins with its program keeps that word. -/
theorem argv_of_plain (h : s.BeginsPlain) : s.argv pid = s.programWord ::
    (plainWords s.parts).tail.map (Expansion.expandWord (decimal pid.toNat)) := by
  refine s.argv_eq_cons pid (if_neg ?_).symm
  rw [isSome_head_iff]
  exact fun hno => hno h

/-- A line that begins with a redirection keeps no word. -/
theorem argv_of_not_plain (h : ¬ s.BeginsPlain) :
    s.argv pid = Expansion.expandWord (decimal pid.toNat) s.programWord ::
      (plainWords s.parts).tail.map (Expansion.expandWord (decimal pid.toNat)) := by
  refine s.argv_eq_cons pid (if_pos ?_).symm
  rw [isSome_head_iff]
  exact h

/-- Every argument of the command is expanded, wherever on the line it stands. -/
theorem arguments_command (allowBackground : Bool) : (s.command pid allowBackground).arguments =
    (plainWords s.parts).tail.map (Expansion.expandWord (decimal pid.toNat)) := by
  have htail : (s.command pid allowBackground).arguments = (s.argv pid).tail := rfl
  by_cases h : s.BeginsPlain
  · rw [htail, s.argv_of_plain pid h, List.tail_cons]
  · rw [htail, s.argv_of_not_plain pid h, List.tail_cons]

/-- The program of the command is the first of its words. -/
theorem program_of_argv {program : Word} {arguments : List Word} {allowBackground : Bool}
    (h : s.argv pid = program :: arguments) :
    (s.command pid allowBackground).program = program := by
  have hboth := (s.argv_command pid allowBackground).trans h
  exact (List.cons.inj hboth).1

/-- Lines with the same plain words run the same, if they both begin with their program or both do
not, or if expansion has nothing to do there. -/
theorem argv_eq_iff {t : Sentence} (hsame : plainWords t.parts = plainWords s.parts) :
    t.argv pid = s.argv pid ↔
      ((t.BeginsPlain ↔ s.BeginsPlain) ∨ ¬ Expansion.sign <:+: s.programWord) := by
  have hword : t.programWord = s.programWord := by simp only [programWord, hsame]
  have hfixed := Expansion.expandWord_eq_self_iff (w := s.programWord) (n := pid.toNat)
  by_cases ht : t.BeginsPlain
  · rw [t.argv_of_plain pid ht, hword, hsame]
    by_cases hs : s.BeginsPlain
    · rw [s.argv_of_plain pid hs]
      exact iff_of_true rfl (.inl (iff_of_true ht hs))
    · rw [s.argv_of_not_plain pid hs, List.cons.injEq, eq_self_iff_true, and_true, eq_comm, hfixed]
      simp [ht, hs]
  · rw [t.argv_of_not_plain pid ht, hword, hsame]
    by_cases hs : s.BeginsPlain
    · rw [s.argv_of_plain pid hs, List.cons.injEq, eq_self_iff_true, and_true, hfixed]
      simp [ht, hs]
    · rw [s.argv_of_not_plain pid hs]
      exact iff_of_true rfl (.inl (iff_of_false ht hs))

/-- A line is one sentence only, as far as its parts go: its words fall into parts in one way. -/
theorem parts_eq_of_spaced {s t : Sentence} {line : Text} (hs : Spaced s.words line)
    (ht : Spaced t.words line) : t.parts = s.parts := by
  have hwords : t.words = s.words := (spaced_iff.mp ht).symm.trans (spaced_iff.mp hs)
  have hbody := congrArg Command.withoutMarker hwords
  rw [withoutMarker_words, withoutMarker_words] at hbody
  exact Redirects.flatMap_words_injective hbody

end Sentence

open Expansion (sign Replaces expandWord)

/-- Each of several words is replaced by its expansion, as the rule says. -/
theorem forall_replaces (digits : Text) (ws : List Word) :
    List.Forall₂ (Replaces digits) ws (ws.map (expandWord digits)) := by
  induction ws with
  | nil => exact .nil
  | cons w ws ih => exact .cons (Expansion.replaces_expandWord digits w) ih

/-- **The program stays as it was written exactly if nothing is expanded in it.**  A line that is
parsed as a command is a sentence, in one way only.  The arguments and the targets are its words
with digits for the double dollar signs.  So is the program if the line begins with a redirection;
then it is the word on the line only if that has no double dollar sign.  If the line does not begin
with a redirection the program is that word.  Lines with the same plain words run the same exactly
if both begin with a redirection or both do not, or if the word for the program has no double dollar
sign. -/
theorem program_verbatim_iff {line : Text} {pid : UInt32} {allowBackground : Bool} {c : Command}
    (hparse : Command.parse line pid allowBackground = .ok (some c)) :
    ∃ s : Sentence, Spaced s.words line ∧
    (∀ t : Sentence, Spaced t.words line → t.parts = s.parts) ∧
    List.Forall₂ (Replaces (decimal pid.toNat)) (plainWords s.parts).tail c.arguments ∧
    (∀ d, List.Forall₂ (Replaces (decimal pid.toNat)) (targets d s.parts)
      (c.redirects.get d).toList) ∧
    (s.BeginsPlain → c.program = s.programWord) ∧
    (¬ s.BeginsPlain → Replaces (decimal pid.toNat) s.programWord c.program) ∧
    (c.program = s.programWord ↔ s.BeginsPlain ∨ ¬ sign <:+: s.programWord) ∧
    ∀ t : Sentence, plainWords t.parts = plainWords s.parts → ∀ allowBackground',
      ((t.command pid allowBackground').argv = c.argv ↔
        (t.BeginsPlain ↔ s.BeginsPlain) ∨ ¬ sign <:+: s.programWord) := by
  obtain ⟨s, hspaced, rfl⟩ := ((parse_by_grammar line pid allowBackground).1 c).mp hparse
  have hplain : s.BeginsPlain → (s.command pid allowBackground).program = s.programWord :=
    fun h => s.program_of_argv pid (s.argv_of_plain pid h)
  have hnot : ¬ s.BeginsPlain → (s.command pid allowBackground).program =
      expandWord (decimal pid.toNat) s.programWord :=
    fun h => s.program_of_argv pid (s.argv_of_not_plain pid h)
  refine ⟨s, hspaced, fun t => Sentence.parts_eq_of_spaced hspaced, ?_, fun d => ?_, hplain,
    fun h => Expansion.replaces_iff.mpr (hnot h).symm, ?_, fun t hsame allowBackground' => ?_⟩
  · rw [s.arguments_command pid allowBackground]
    exact forall_replaces _ _
  · have htarget : ((s.command pid allowBackground).redirects.get d).toList =
        (targets d s.parts).map (expandWord (decimal pid.toNat)) := by
      rw [s.settled d, Sentence.command, Redirects.get_map]
      cases s.redirects.get d <;> rfl
    rw [htarget]
    exact forall_replaces _ _
  · by_cases h : s.BeginsPlain
    · exact iff_of_true (hplain h) (.inl h)
    · rw [hnot h, Expansion.expandWord_eq_self_iff]
      exact ⟨.inr, fun hone => hone.resolve_left h⟩
  · rw [Sentence.argv_command, Sentence.argv_command]
    exact s.argv_eq_iff pid hsame

/-- A line on which a redirection stands before the program. -/
def redirectionFirst : Sentence where
  parts := [.pair .input ['i'], .plain ['c', '$', '$'] (by decide)]
  redirects := { input := some ['i'] }
  marked := false
  runs := by decide
  settled := by
    intro d
    cases d <;> rfl
  uncommented := by decide
  unmarked := fun _ => by decide

/-- The line in question has these words, with single blanks between them. -/
theorem spaced_redirectionFirst :
    Spaced redirectionFirst.words ['<', ' ', 'i', ' ', 'c', '$', '$'] :=
  spaced_iff.mpr (by decide +kernel)

/-- On that line the program is expanded, and its arguments and targets are as they should be. -/
theorem program_verbatim_iff_of_redirectionFirst :
    Command.parse ['<', ' ', 'i', ' ', 'c', '$', '$'] 7 true = .ok (some
      { program := ['c', '7'], arguments := [], background := false,
        redirects := { input := some ['i'] } }) ∧
    ∃ s : Sentence, Spaced s.words ['<', ' ', 'i', ' ', 'c', '$', '$'] ∧
      s.parts = redirectionFirst.parts ∧ Replaces (decimal 7) s.programWord ['c', '7'] ∧
      ¬ s.BeginsPlain := by
  have hparse : Command.parse ['<', ' ', 'i', ' ', 'c', '$', '$'] 7 true = .ok (some
      { program := ['c', '7'], arguments := [], background := false,
        redirects := { input := some ['i'] } }) := by decide +kernel
  obtain ⟨s, hspaced, honly, -, -, -, hreplaced, -⟩ := program_verbatim_iff hparse
  have hparts := honly _ spaced_redirectionFirst
  have hnot : ¬ s.BeginsPlain := by
    rw [Sentence.BeginsPlain, Sentence.body, ← hparts]
    decide
  exact ⟨hparse, s, hspaced, hparts.symm, hreplaced hnot, hnot⟩

/-- The word in the position of the program has a double dollar sign, and the program has not; with
the redirection at the end of the line it is another program. -/
theorem program_expanded_after_redirection :
    (∃ c, Command.parse ['<', ' ', 'i', ' ', 'c', '$', '$'] 7 true = .ok (some c) ∧
      (∀ s : Sentence, Spaced s.words ['<', ' ', 'i', ' ', 'c', '$', '$'] →
        s.programWord = ['c', '$', '$'] ∧ c.program ≠ s.programWord) ∧
      c.argv = [['c', '7']]) ∧
    ∃ c, Command.parse ['c', '$', '$', ' ', '<', ' ', 'i'] 7 true = .ok (some c) ∧
      c.argv = [['c', '$', '$']] := by
  refine ⟨⟨_, (by decide +kernel : Command.parse ['<', ' ', 'i', ' ', 'c', '$', '$'] 7 true =
    .ok (some { program := ['c', '7'], arguments := [], background := false,
                redirects := { input := some ['i'] } })), fun s hspaced => ?_, rfl⟩,
    _, (by decide +kernel : Command.parse ['c', '$', '$', ' ', '<', ' ', 'i'] 7 true =
    .ok (some { program := ['c', '$', '$'], arguments := [], background := false,
                redirects := { input := some ['i'] } })), rfl⟩
  have hparts := Sentence.parts_eq_of_spaced spaced_redirectionFirst hspaced
  have hword : s.programWord = ['c', '$', '$'] := by
    simp only [Sentence.programWord, hparts]
    rfl
  refine ⟨hword, ?_⟩
  rw [hword]
  decide

end Conch
