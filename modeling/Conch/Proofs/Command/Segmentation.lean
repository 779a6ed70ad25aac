import Conch.Command.Redirects

/-!
# Segmentations

The words of a command fall into parts: plain words, and pairs of a symbol and the path after it.
Taking the redirections out finds these parts from left to right.  It succeeds exactly on the words
that fall into parts with no stream redirected twice, and it gives the plain words and the paths
(`extract_eq_ok_iff`); there is only one way for words to fall into parts
(`flatMap_words_injective`).

Which words are symbols is all that taking out the redirections looks at, so changing words in a way
that no symbol appears or disappears commutes with it (`extractAfter_map`).
-/

namespace Conch

namespace Redirects

/-- Redirections are the same if they give each stream the same target. -/
theorem ext_get {r s : Redirects} (h : ∀ d, r.get d = s.get d) : r = s := by
  have hinput : r.input = s.input := h .input
  have houtput : r.output = s.output := h .output
  cases r
  cases s
  simp_all

/-- A part of a command: a word that announces nothing, or a symbol and the path after it. -/
inductive Part where
  | plain (word : Word) (hplain : Direction.ofWord? word = none)
  | pair (d : Direction) (path : Word)

namespace Part

/-- The words of the part. -/
def words : Part → List Word
  | plain word _ => [word]
  | pair d path => [d.symbol, path]

/-- The plain word that the part is, if it is one. -/
def word? : Part → Option Word
  | plain word _ => some word
  | pair _ _ => none

/-- The path that the part gives for a direction, if it gives one. -/
def target? (d : Direction) : Part → Option Word
  | plain _ _ => none
  | pair e path => if e = d then some path else none

end Part

/-! ## One part after the other -/

variable {found : Redirects} {w path : Word} {ws : List Word} {d : Direction}

/-- A word that announces nothing is kept in front of what is left of the words after it. -/
theorem extractAfter_plain (hplain : Direction.ofWord? w = none) :
    extractAfter found (w :: ws) =
      (extractAfter found ws).map fun r => (w :: r.1, r.2) := by
  cases ws with
  | nil =>
      have hlast : extractAfter found [w] = .ok ([w], found) := by rw [extractAfter, hplain]
      rw [hlast]
      rfl
  | cons v ws => rw [extractAfter, hplain]

/-- A symbol with a path gives its stream a target, and it is a fault if the stream has one
already. -/
theorem extractAfter_pair :
    extractAfter found (d.symbol :: path :: ws) =
      if (found.get d).isSome then .error (.repeated d)
      else extractAfter (found.set d path) ws := by
  rw [extractAfter, Direction.ofWord?_symbol]

/-- The plain words among the parts. -/
def plainWords (parts : List Part) : List Word :=
  parts.filterMap Part.word?

/-- The paths that the parts give for a direction. -/
def targets (d : Direction) (parts : List Part) : List Word :=
  parts.filterMap (Part.target? d)

/-- A pair sets the target of its stream, which must be free. -/
theorem settled_pair_iff {r : Redirects} {parts : List Part} (hfree : found.get d = none) :
    (∀ e, ((found.set d path).get e).toList ++ targets e parts = (r.get e).toList) ↔
      ∀ e, (found.get e).toList ++ targets e (.pair d path :: parts) = (r.get e).toList := by
  refine forall_congr' fun e => ?_
  by_cases he : e = d
  · subst he
    simp [targets, Part.target?, hfree]
  · have hne : ¬ d = e := fun h => he h.symm
    simp [targets, Part.target?, hne, get_set_of_ne found path he]

/-- The words fall into these parts, which give these plain words and, with what was found before
them, these redirections: each stream has the target it had before, or else the only one that the
parts give it. -/
structure Segments (found : Redirects) (ws : List Word) (parts : List Part) (left : List Word)
    (r : Redirects) : Prop where
  words : parts.flatMap Part.words = ws
  left : plainWords parts = left
  targets : ∀ d, (found.get d).toList ++ targets d parts = (r.get d).toList

/-- **Words that fall into parts are extracted as these say**: the plain words are left, and the
streams get the targets of the pairs. -/
theorem extractAfter_of_segments {parts : List Part} {left : List Word} {r : Redirects}
    (h : Segments found ws parts left r) : extractAfter found ws = .ok (left, r) := by
  induction parts generalizing found ws left with
  | nil =>
      obtain ⟨rfl, rfl, htargets⟩ := h
      have hsame : found = r := by
        refine ext_get fun d => ?_
        have hd := htargets d
        cases hfound : found.get d <;> cases hr : r.get d <;>
          simp_all [Redirects.targets]
      rw [hsame]
      rfl
  | cons part parts ih =>
      obtain ⟨rfl, rfl, htargets⟩ := h
      cases part with
      | plain word hplain =>
          have hrest : Segments found (parts.flatMap Part.words) parts (plainWords parts) r :=
            ⟨rfl, rfl, fun d => htargets d⟩
          have hwords : (Part.plain word hplain :: parts).flatMap Part.words =
              word :: parts.flatMap Part.words := rfl
          rw [hwords, extractAfter_plain hplain, ih hrest]
          rfl
      | pair d path =>
          have hfree : found.get d = none := by
            have hd := htargets d
            cases hget : found.get d with
            | none => rfl
            | some old =>
                -- Two targets for one stream are more than an option can hold.
                rw [hget] at hd
                have hlength := congrArg List.length hd
                cases hr : r.get d <;> simp [hr, Redirects.targets, Part.target?] at hlength
          have hrest : Segments (found.set d path) (parts.flatMap Part.words) parts
              (plainWords parts) r :=
            ⟨rfl, rfl, (settled_pair_iff hfree).mpr htargets⟩
          have hwords : (Part.pair d path :: parts).flatMap Part.words =
              d.symbol :: path :: parts.flatMap Part.words := rfl
          have hnot : ¬ (found.get d).isSome = true := by simp [hfree]
          rw [hwords, extractAfter_pair, if_neg hnot, ih hrest]
          rfl

/-- **Extraction succeeds only on words that fall into parts**, and what it finds is what these
parts give. -/
theorem segments_of_extractAfter {left : List Word} {r : Redirects}
    (h : extractAfter found ws = .ok (left, r)) : ∃ parts, Segments found ws parts left r := by
  fun_induction extractAfter found ws generalizing left r with
  | case1 found =>
      obtain ⟨rfl, rfl⟩ := Prod.mk.inj (Except.ok.inj h)
      exact ⟨[], rfl, rfl, fun d => List.append_nil _⟩
  | case2 found w hplain =>
      obtain ⟨rfl, rfl⟩ := Prod.mk.inj (Except.ok.inj h)
      exact ⟨[.plain w hplain], rfl, rfl, fun d => List.append_nil _⟩
  | case3 => exact nomatch h
  | case4 found w path rest hplain ih =>
      cases hrun : extractAfter found (path :: rest) with
      | error fault =>
          rw [hrun] at h
          exact nomatch h
      | ok result =>
          rw [hrun] at h
          obtain ⟨rfl, rfl⟩ := Prod.mk.inj (Except.ok.inj h)
          obtain ⟨parts, hwords, hleft, htargets⟩ := ih hrun
          refine ⟨.plain w hplain :: parts, ?_, ?_, htargets⟩
          · rw [← hwords]
            rfl
          · rw [← hleft]
            rfl
  | case5 => exact nomatch h
  | case6 found w path rest d hsymbol hfree ih =>
      obtain ⟨parts, hwords, hleft, htargets⟩ := ih h
      have hnone : found.get d = none := by simpa using hfree
      refine ⟨.pair d path :: parts, ?_, hleft, (settled_pair_iff hnone).mp htargets⟩
      rw [Direction.ofWord?_eq_some_iff.mp hsymbol, ← hwords]
      rfl

/-- **Taking out the redirections finds the parts.**  It succeeds exactly on words that fall into
parts with at most one path for each stream; what it gives are the plain words and the paths. -/
theorem extract_eq_ok_iff {left : List Word} {r : Redirects} :
    extract ws = .ok (left, r) ↔ ∃ parts : List Part,
      parts.flatMap Part.words = ws ∧ plainWords parts = left ∧
        ∀ d, targets d parts = (r.get d).toList := by
  have hnone : ∀ d, (({} : Redirects).get d).toList = [] := by
    intro d
    cases d <;> rfl
  constructor
  · intro h
    obtain ⟨parts, hwords, hleft, htargets⟩ := segments_of_extractAfter h
    refine ⟨parts, hwords, hleft, fun d => ?_⟩
    rw [← htargets d, hnone d, List.nil_append]
  · rintro ⟨parts, hwords, hleft, htargets⟩
    refine extractAfter_of_segments ⟨hwords, hleft, fun d => ?_⟩
    rw [hnone d, List.nil_append, htargets d]

/-- **Words fall into parts in one way only**: no plain word is a symbol. -/
theorem flatMap_words_injective {parts parts' : List Part}
    (h : parts.flatMap Part.words = parts'.flatMap Part.words) : parts = parts' := by
  have hclash : ∀ {word : Word} (_ : Direction.ofWord? word = none) (d : Direction),
      word ≠ d.symbol := by
    rintro word hplain d rfl
    simp at hplain
  induction parts generalizing parts' with
  | nil =>
      cases parts' with
      | nil => rfl
      | cons part parts' => cases part <;> exact nomatch h
  | cons part parts ih =>
      cases parts' with
      | nil => cases part <;> exact nomatch h
      | cons part' parts' =>
          rw [List.flatMap_cons, List.flatMap_cons] at h
          cases part with
          | plain word hplain =>
              cases part' with
              | plain word' hplain' =>
                  obtain ⟨rfl, hrest⟩ := List.cons.inj h
                  rw [ih hrest]
              | pair d' path' =>
                  obtain ⟨hsame, -⟩ := List.cons.inj h
                  exact absurd hsame (hclash hplain d')
          | pair d path =>
              cases part' with
              | plain word' hplain' =>
                  obtain ⟨hsame, -⟩ := List.cons.inj h
                  exact absurd hsame.symm (hclash hplain' d)
              | pair d' path' =>
                  obtain ⟨hsymbol, hpaths⟩ := List.cons.inj h
                  obtain ⟨rfl, hrest⟩ := List.cons.inj hpaths
                  have hsame : d = d' := by
                    have hread := Direction.ofWord?_symbol d
                    rw [hsymbol, Direction.ofWord?_symbol] at hread
                    exact (Option.some.inj hread).symm
                  rw [hsame, ih hrest]

/-! ## Changing words -/

/-- The redirections with each path changed. -/
def map (f : Word → Word) (r : Redirects) : Redirects :=
  { input := r.input.map f, output := r.output.map f }

/-- A change of all targets changes the target of each stream, if it has one. -/
theorem get_map (f : Word → Word) (r : Redirects) (d : Direction) :
    (r.map f).get d = (r.get d).map f := by
  cases d <;> rfl

/-- To change all targets after one was set is to set the changed one among the changed others. -/
theorem map_set (f : Word → Word) (r : Redirects) (d : Direction) (path : Word) :
    (r.set d path).map f = (r.map f).set d (f path) := by
  cases d <;> rfl

/-- A change that makes and removes no symbol may come before or after. -/
theorem extractAfter_map {f : Word → Word}
    (hf : ∀ w, Direction.ofWord? (f w) = Direction.ofWord? w) (found : Redirects)
    (ws : List Word) : extractAfter (found.map f) (ws.map f) =
      (extractAfter found ws).map fun r => (r.1.map f, r.2.map f) := by
  fun_induction extractAfter found ws with
  | case1 found => rfl
  | case2 found w hplain =>
      rw [List.map_singleton, extractAfter, hf, hplain]
      rfl
  | case3 found w d hsymbol =>
      rw [List.map_singleton, extractAfter, hf, hsymbol]
      rfl
  | case4 found w path rest hplain ih =>
      rw [List.map_cons, extractAfter_plain ((hf w).trans hplain), ih]
      cases extractAfter found (path :: rest) <;> rfl
  | case5 found w path rest d hsymbol htaken =>
      have htaken' : ((found.map f).get d).isSome = true := by rw [get_map]; simpa using htaken
      rw [List.map_cons, List.map_cons, extractAfter, hf, hsymbol]
      dsimp only
      rw [if_pos htaken']
      rfl
  | case6 found w path rest d hsymbol hfree ih =>
      have hfree' : ¬ ((found.map f).get d).isSome = true := by rw [get_map]; simpa using hfree
      rw [List.map_cons, List.map_cons, extractAfter, hf, hsymbol]
      dsimp only
      rw [if_neg hfree', ← map_set, ih]

end Redirects

end Conch
