import Conch.Command
import Conch.Proofs.Command.Expansion
import Conch.Proofs.Command.Segmentation
import Conch.Proofs.Text.Words
import Mathlib.Data.List.Basic

/-!
# The grammar of lines

A `Sentence` is what a line with a command says: plain words and pairs of a symbol and a path, in
some order, with a plain word somewhere, at most one path for each stream, and perhaps a marker at
the end.  Written with blanks between its words, any sentence is parsed as its command; each line
that is parsed as a command is such a writing; and a line that is neither idle nor a sentence has a
fault (`parse_by_grammar`).

The order in which the parser works does not show in the grammar, because its steps do not get in
each other's way.  Expansion makes and removes no symbol (`ofWord?_expandWord`), so the redirections
can as well be taken out first (`extract_expand`); and the marker is taken off before, so what is
then the last word of the line is as good a path as any other.
-/

namespace Conch

open Text (decimal Spaced spaced_iff)

/-! ## Expansion and redirections -/

namespace Expansion

/-- The plain words of a line after expansion.  The first one stays as it is if the line begins with
it, and not with a symbol. -/
def spoken (pid : UInt32) (line : List Word) : List Word → List Word
  | [] => []
  | first :: rest =>
    (if (line.head?.bind Direction.ofWord?).isSome then expandWord (decimal pid.toNat) first
      else first) :: rest.map (expandWord (decimal pid.toNat))

/-- If the line begins with a plain word, this is the program, so it is spared, and only the words
after it are expanded. -/
theorem spoken_of_plain {pid : UInt32} {w : Word} {line : List Word}
    (hplain : Direction.ofWord? w = none) (plain : List Word) :
    spoken pid (w :: line) (w :: plain) = expand pid (w :: plain) := by
  simp [spoken, hplain, expand]

/-- If the line begins with a redirection, the index of the program is not that of the first word,
and all plain words are expanded. -/
theorem spoken_of_symbol {pid : UInt32} {w : Word} {line : List Word} {d : Direction}
    (hsymbol : Direction.ofWord? w = some d) (plain : List Word) :
    spoken pid (w :: line) plain = plain.map (expandWord (decimal pid.toNat)) := by
  cases plain with
  | nil => rfl
  | cons first rest => simp [spoken, hsymbol]

/-- Taking out the redirections and expanding what is left comes to the same as the other way
round. -/
theorem extract_expand (pid : UInt32) (ws : List Word) :
    Redirects.extract (expand pid ws) = (Redirects.extract ws).map fun r =>
      (spoken pid ws r.1, r.2.map (expandWord (decimal pid.toNat))) := by
  have hmap : ∀ words : List Word,
      Redirects.extractAfter {} (words.map (expandWord (decimal pid.toNat))) =
        (Redirects.extractAfter {} words).map fun r =>
          (r.1.map (expandWord (decimal pid.toNat)),
            r.2.map (expandWord (decimal pid.toNat))) :=
    Redirects.extractAfter_map (ofWord?_expandWord pid.toNat) {}
  cases ws with
  | nil => rfl
  | cons first rest =>
      cases hfirst : Direction.ofWord? first with
      | none =>
          rw [expand, Redirects.extract, Redirects.extract, Redirects.extractAfter_plain hfirst,
            Redirects.extractAfter_plain hfirst, hmap rest]
          cases Redirects.extractAfter {} rest with
          | error fault => rfl
          | ok r =>
              simp only [Except.map, spoken_of_plain hfirst]
              rfl
      | some d =>
          have hfixed : expandWord (decimal pid.toNat) first = first := by
            have hsame := (ofWord?_expandWord pid.toNat first).trans hfirst
            rw [Direction.ofWord?_eq_some_iff.mp hsame, Direction.ofWord?_eq_some_iff.mp hfirst]
          have hall : expand pid (first :: rest) =
              (first :: rest).map (expandWord (decimal pid.toNat)) := by
            rw [List.map_cons, hfixed, expand]
          rw [hall, Redirects.extract, Redirects.extract, hmap]
          simp only [spoken_of_symbol hfirst]

/-- Expansion leaves no line without a word that can be run, since it only changes the words that
are there. -/
theorem spoken_ne_nil {pid : UInt32} {line plain : List Word} (h : plain ≠ []) :
    spoken pid line plain ≠ [] := by
  obtain ⟨first, rest, rfl⟩ := List.exists_cons_of_ne_nil h
  exact List.cons_ne_nil _ _

end Expansion

/-! ## Sentences -/

open Redirects (Part plainWords targets)

/-- What a line with a command says: the plain words and the pairs, in the order in which they stand
on the line, the targets of the redirections, and whether a marker ends the line.  There is a plain
word, and for each stream the pairs give its target, or nothing if it has none.  The line does not
look like a comment, and its last word does not look like a marker if none is added. -/
structure Sentence where
  parts : List Part
  redirects : Redirects
  marked : Bool
  runs : plainWords parts ≠ []
  settled : ∀ d, targets d parts = (redirects.get d).toList
  uncommented : ∀ w ∈ (parts.flatMap Part.words).head?, w.head? ≠ some Command.commentMarker
  unmarked : marked = false →
    (parts.flatMap Part.words).getLast? ≠ some Command.backgroundMarker

namespace Sentence

variable (s : Sentence) (pid : UInt32) (allowBackground : Bool)

/-- The words of the line without the marker. -/
def body : List Word :=
  s.parts.flatMap Part.words

/-- The words of the line. -/
def words : List Word :=
  s.body ++ if s.marked then [Command.backgroundMarker] else []

/-- The program and its arguments: the plain words, in which the process id of the shell stands for
each double dollar sign, but for the first word of the line. -/
def argv : List Word :=
  Expansion.spoken pid s.body (plainWords s.parts)

/-- The command that the sentence stands for. -/
def command : Command where
  program := (s.argv pid).head (Expansion.spoken_ne_nil s.runs)
  arguments := (s.argv pid).tail
  background := s.marked && allowBackground
  redirects := s.redirects.map (Expansion.expandWord (decimal pid.toNat))

/-- The words of the command that a sentence becomes are those that the sentence gives, its program
first. -/
theorem argv_command : (s.command pid allowBackground).argv = s.argv pid :=
  List.cons_head_tail _

/-- A sentence has words apart from the marker, since one of its parts is a plain word. -/
theorem body_ne_nil : s.body ≠ [] := by
  intro hnone
  have hparts : s.parts = [] := by
    cases hparts : s.parts with
    | nil => rfl
    | cons part parts =>
        rw [body, hparts, List.flatMap_cons] at hnone
        cases part <;> exact nomatch hnone
  refine s.runs ?_
  rw [hparts]
  rfl

/-- The words of a sentence are no comment and not empty, so that the parser does not pass over
them. -/
theorem isIdle_words : Command.isIdle s.words = false := by
  obtain ⟨first, rest, hbody⟩ := List.exists_cons_of_ne_nil s.body_ne_nil
  have hfirst : first.head? ≠ some Command.commentMarker := by
    refine s.uncommented first ?_
    have hhead := congrArg List.head? hbody
    exact hhead
  rw [words, hbody, List.cons_append, Command.isIdle]
  simpa using hfirst

/-- The words of a sentence ask for the background exactly if a marker ends them. -/
theorem asksBackground_words : Command.asksBackground s.words = s.marked := by
  cases hmarked : s.marked with
  | true => simp [Command.asksBackground, words, hmarked]
  | false =>
      have hlast := s.unmarked hmarked
      simp only [Command.asksBackground, words, hmarked]
      simpa [body] using hlast

/-- Without its marker a sentence is its body, the words of its parts one after the other. -/
theorem withoutMarker_words : Command.withoutMarker s.words = s.body := by
  rw [Command.withoutMarker, s.asksBackground_words]
  cases hmarked : s.marked <;> simp [words, hmarked]

/-- The extraction of redirections finds in the body of a sentence the plain words and the targets
that its parts give. -/
theorem extract_body : Redirects.extract s.body = .ok (plainWords s.parts, s.redirects) :=
  Redirects.extract_eq_ok_iff.mpr ⟨s.parts, rfl, rfl, s.settled⟩

/-- **A sentence is parsed as its command.**  Any line with the words of the sentence will do,
whatever blanks are between them. -/
theorem parse_of_words {line : Text} (h : Text.words line = s.words) :
    Command.parse line pid allowBackground = .ok (some (s.command pid allowBackground)) := by
  have hextract : Redirects.extract (Expansion.expand pid s.body) =
      .ok (s.argv pid, s.redirects.map (Expansion.expandWord (decimal pid.toNat))) := by
    rw [Expansion.extract_expand, s.extract_body]
    rfl
  have hargv : s.argv pid = (s.command pid allowBackground).program ::
      (s.command pid allowBackground).arguments := (s.argv_command pid allowBackground).symm
  rw [Command.parse, h]
  simp only [s.isIdle_words, s.withoutMarker_words, s.asksBackground_words, hextract]
  rw [hargv]
  rfl

end Sentence

/-! ## Lines -/

namespace Command

variable {ws : List Word}

/-- Taking off the marker takes off nothing else: with the marker put back, if there was one, the
words are as before. -/
theorem withoutMarker_append (ws : List Word) :
    withoutMarker ws ++ (if asksBackground ws then [backgroundMarker] else []) = ws := by
  unfold withoutMarker
  by_cases hasks : asksBackground ws = true
  · have hlast : ws.getLast? = some backgroundMarker := by simpa [asksBackground] using hasks
    rw [if_pos hasks, if_pos hasks]
    exact List.dropLast_append_getLast? backgroundMarker hlast
  · rw [if_neg hasks, if_neg hasks, List.append_nil]

/-- If no marker ends the words, none is left at their end by taking the marker off. -/
theorem getLast?_withoutMarker (h : asksBackground ws = false) :
    (withoutMarker ws).getLast? ≠ some backgroundMarker := by
  have hlast : ¬ asksBackground ws = true := by simp [h]
  rw [withoutMarker, if_neg hlast]
  simpa [asksBackground] using h

/-- Words that are not idle do not look like a comment when the marker at their end is taken off. -/
theorem head?_withoutMarker (h : isIdle ws = false) :
    ∀ w ∈ (withoutMarker ws).head?, w.head? ≠ some commentMarker := by
  intro w hw
  have hfirst : ws.head? = some w := by
    rw [← withoutMarker_append ws, List.head?_append, Option.mem_def.mp hw]
    rfl
  cases ws with
  | nil => exact nomatch hfirst
  | cons first rest =>
      obtain rfl := Option.some.inj hfirst
      simpa [isIdle] using h

end Command

variable {line : Text} {pid : UInt32} {allowBackground : Bool}

/-- The words of a sentence are found in a line that falls into parts and runs something. -/
theorem exists_sentence_of_extract {ws plain : List Word} {redirects : Redirects}
    (hidle : Command.isIdle ws = false) (hruns : plain ≠ [])
    (hextract : Redirects.extract (Command.withoutMarker ws) = .ok (plain, redirects)) :
    ∃ s : Sentence, ws = s.words := by
  obtain ⟨parts, hbody, hplain, hsettled⟩ := Redirects.extract_eq_ok_iff.mp hextract
  let s : Sentence :=
    { parts, redirects
      marked := Command.asksBackground ws
      runs := by rwa [hplain]
      settled := hsettled
      uncommented := by
        rw [hbody]
        exact Command.head?_withoutMarker hidle
      unmarked := by
        rw [hbody]
        exact Command.getLast?_withoutMarker }
  refine ⟨s, ?_⟩
  have hwords : s.words = Command.withoutMarker ws ++
      (if Command.asksBackground ws then [Command.backgroundMarker] else []) := by
    rw [← hbody]
    rfl
  rw [hwords, Command.withoutMarker_append]

/-- A blank line and a comment are no command and no error, whatever the process id and the mode
are. -/
theorem parse_of_idle (h : Command.isIdle (Text.words line) = true) :
    Command.parse line pid allowBackground = .ok none := by
  unfold Command.parse
  dsimp only
  rw [if_pos h]

/-- A line that is not idle is a sentence or has a fault. -/
theorem sentence_or_fault (pid : UInt32) (allowBackground : Bool)
    (hidle : Command.isIdle (Text.words line) = false) :
    (∃ s : Sentence, Text.words line = s.words) ∨
      ∃ fault, Command.parse line pid allowBackground = .error fault := by
  have hnot : ¬ Command.isIdle (Text.words line) = true := by simp [hidle]
  unfold Command.parse
  dsimp only
  rw [if_neg hnot, Expansion.extract_expand]
  cases hextract : Redirects.extract (Command.withoutMarker (Text.words line)) with
  | error fault => exact .inr ⟨_, rfl⟩
  | ok r =>
      obtain ⟨plain, redirects⟩ := r
      by_cases hruns : plain = []
      · subst hruns
        refine .inr ⟨.missingCommand (Text.trim line), ?_⟩
        rfl
      · exact .inl (exists_sentence_of_extract hidle hruns hextract)

/-- The line has no word, or its first word begins like a comment. -/
def Idle (line : Text) : Prop :=
  ∃ ws, Spaced ws line ∧ ∀ w ∈ ws.head?, w.head? = some Command.commentMarker

/-- A line has nothing to run, by the grammar, exactly if the parser takes its words for a comment
or for none. -/
theorem idle_iff : Idle line ↔ Command.isIdle (Text.words line) = true := by
  have hwords : Command.isIdle (Text.words line) = true ↔
      ∀ w ∈ (Text.words line).head?, w.head? = some Command.commentMarker := by
    cases Text.words line with
    | nil => simp [Command.isIdle]
    | cons first rest => simp [Command.isIdle]
  rw [hwords]
  constructor
  · rintro ⟨ws, hspaced, hfirst⟩
    rw [spaced_iff.mp hspaced]
    exact hfirst
  · intro hfirst
    exact ⟨_, spaced_iff.mpr rfl, hfirst⟩

/-- **The parser accepts exactly the grammar.**  A line is parsed as a command if and only if it is
a sentence, written with blanks between its words and with any blanks around it, and then it is the
command of that sentence.  It is parsed as nothing to run if and only if it is idle.  Every other
line has a fault.  In a command the digits of the process id have replaced the double dollar
signs. -/
theorem parse_by_grammar (line : Text) (pid : UInt32) (allowBackground : Bool) :
    (∀ c, Command.parse line pid allowBackground = .ok (some c) ↔
      ∃ s : Sentence, Spaced s.words line ∧ s.command pid allowBackground = c) ∧
    (Command.parse line pid allowBackground = .ok none ↔ Idle line) ∧
    ((∃ fault, Command.parse line pid allowBackground = .error fault) ↔
      ¬ Idle line ∧ ∀ s : Sentence, ¬ Spaced s.words line) ∧
    ∀ w w', Expansion.expandWord (decimal pid.toNat) w = w' ↔
      Expansion.Replaces (decimal pid.toNat) w w' := by
  have hsentence : ∀ s : Sentence, Spaced s.words line →
      Command.parse line pid allowBackground = .ok (some (s.command pid allowBackground)) := by
    intro s hspaced
    exact s.parse_of_words pid allowBackground (spaced_iff.mp hspaced)
  have hnone : Idle line → Command.parse line pid allowBackground = .ok none := by
    intro hidle
    exact parse_of_idle (idle_iff.mp hidle)
  have hother : ¬ Idle line → (∃ s : Sentence, Spaced s.words line) ∨
      ∃ fault, Command.parse line pid allowBackground = .error fault := by
    intro hbusy
    rw [idle_iff, Bool.not_eq_true] at hbusy
    rcases sentence_or_fault pid allowBackground hbusy with ⟨s, hwords⟩ | hfault
    · exact .inl ⟨s, spaced_iff.mpr hwords⟩
    · exact .inr hfault
  refine ⟨fun c => ⟨fun hparse => ?_, ?_⟩, ⟨fun hparse => ?_, hnone⟩, ⟨?_, ?_⟩,
    fun w w' => Expansion.replaces_iff.symm⟩
  · have hbusy : ¬ Idle line := by
      intro hidle
      rw [hnone hidle] at hparse
      exact nomatch hparse
    rcases hother hbusy with ⟨s, hspaced⟩ | ⟨fault, hfault⟩
    · rw [hsentence s hspaced] at hparse
      exact ⟨s, hspaced, Option.some.inj (Except.ok.inj hparse)⟩
    · rw [hfault] at hparse
      exact nomatch hparse
  · rintro ⟨s, hspaced, rfl⟩
    exact hsentence s hspaced
  · by_contra hbusy
    rcases hother hbusy with ⟨s, hspaced⟩ | ⟨fault, hfault⟩
    · rw [hsentence s hspaced] at hparse
      exact nomatch hparse
    · rw [hfault] at hparse
      exact nomatch hparse
  · rintro ⟨fault, hfault⟩
    refine ⟨fun hidle => ?_, fun s hspaced => ?_⟩
    · rw [hnone hidle] at hfault
      exact nomatch hfault
    · rw [hsentence s hspaced] at hfault
      exact nomatch hfault
  · rintro ⟨hbusy, hno⟩
    rcases hother hbusy with ⟨s, hspaced⟩ | hfault
    · exact absurd hspaced (hno s)
    · exact hfault

end Conch
