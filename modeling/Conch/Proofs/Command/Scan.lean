import Conch.Proofs.Command.Segmentation
import Mathlib.Logic.ExistsUnique

/-!
# Taking redirections out in place

The redirections can be taken out of a list of words without a second list: an index goes through
the words, and where it meets a symbol the pair is cut out and the index stays (`Scan.round`).  Such
a scan never asks for a word that is not there, it ends, and it comes to what
`Redirects.extract` says (`Scan.ends`).  The invariant is that the words before the index are plain
and stay, so only what is behind it is still to be done.

What comes of it is read off the parts of the words.  If there are any with at most one path for
each stream, the plain words and the paths are the result; if not, the words fall into parts up to a
symbol that lacks its path or redirects a stream again, and that symbol is reported
(`extract_eq_error_iff`).
-/

namespace Conch.Redirects

/-! ## The scan -/

/-- The result of taking the redirections out. -/
abbrev Extraction := Except Fault (List Word × Redirects)

/-- A scan on its way through a list of words: the words that have not been cut out, the index of
the one that is looked at next, and what was cut out. -/
structure Scan where
  words : List Word
  position : Nat := 0
  found : Redirects := {}

namespace Scan

/-- What a round of a scan comes to: there is more to do, the scan is over, or a word is asked for
that is not there. -/
inductive Round where
  | again (scan : Scan)
  | over (result : Extraction)
  | astray

/-- Look at one word. -/
def round (s : Scan) : Round :=
  if s.position < s.words.length then
    match s.words[s.position]? with
    | none => .astray
    | some w =>
      match Direction.ofWord? w with
      | none => .again { s with position := s.position + 1 }
      | some d =>
        if s.position + 1 = s.words.length then .over (.error (.missingPath d))
        else if (s.found.get d).isSome then .over (.error (.repeated d))
        else
          match s.words.drop s.position with
          | _ :: path :: rest =>
            .again { s with
              words := s.words.take s.position ++ rest
              found := s.found.set d path }
          | [_] | [] => .astray
  else .over (.ok (s.words, s.found))

/-- The scan goes on for some rounds, none of which goes astray, and ends with a result. -/
inductive Ends : Scan → Extraction → Prop where
  | now {s : Scan} {result : Extraction} (hround : s.round = .over result) : Ends s result
  | later {s next : Scan} {result : Extraction} (hround : s.round = .again next)
      (hrest : Ends next result) : Ends s result

variable {before ws : List Word} {w path : Word} {d : Direction} {found : Redirects}

/-- The scan has passed some words, and others are ahead of it. -/
def between (before ahead : List Word) (found : Redirects) : Scan where
  words := before ++ ahead
  position := before.length
  found

/-- A scan that has no word before it is over, with what is left of the words and with what it has
cut out. -/
theorem round_at_end : (between before [] found).round = .over (.ok (before, found)) := by
  simp [round, between]

/-- A scan goes past a word that announces nothing, and leaves it where it is. -/
theorem round_plain (hplain : Direction.ofWord? w = none) :
    (between before (w :: ws) found).round = .again (between (before ++ [w]) ws found) := by
  simp [round, between, hplain]

/-- A symbol that is the last word ends the scan with the fault that its path is missing. -/
theorem round_last (hsymbol : Direction.ofWord? w = some d) :
    (between before [w] found).round = .over (.error (.missingPath d)) := by
  simp [round, between, hsymbol]

/-- A symbol with a path ends the scan with a fault if its stream is redirected already. -/
theorem round_repeated (hsymbol : Direction.ofWord? w = some d)
    (htaken : (found.get d).isSome = true) :
    (between before (w :: path :: ws) found).round = .over (.error (.repeated d)) := by
  simp [round, between, hsymbol, htaken]

/-- A symbol and its path are cut out of the words and taken down, and the scan goes on with the
word behind them. -/
theorem round_pair (hsymbol : Direction.ofWord? w = some d)
    (hfree : ¬ (found.get d).isSome = true) :
    (between before (w :: path :: ws) found).round =
      .again (between before ws (found.set d path)) := by
  simp [round, between, hsymbol, hfree]

/-- **A scan ends and never goes astray**, and the words that it has passed stand before those that
are left of the others. -/
theorem ends_between (before : List Word) (found : Redirects) (ws : List Word) :
    Ends (between before ws found)
      ((extractAfter found ws).map fun r => (before ++ r.1, r.2)) := by
  fun_induction extractAfter found ws generalizing before with
  | case1 found =>
      have hleft : before ++ [] = before := List.append_nil before
      rw [Except.map, hleft]
      exact .now round_at_end
  | case2 found w hplain => exact .later (round_plain hplain) (.now round_at_end)
  | case3 found w d hsymbol => exact .now (round_last hsymbol)
  | case4 found w path rest hplain ih =>
      have hrest := ih (before ++ [w])
      refine .later (round_plain hplain) ?_
      rcases hrun : extractAfter found (path :: rest) with fault | r <;> rw [hrun] at hrest
      · exact hrest
      · simpa [Except.map] using hrest
  | case5 found w path rest d hsymbol htaken => exact .now (round_repeated hsymbol htaken)
  | case6 found w path rest d hsymbol hfree ih =>
      exact .later (round_pair hsymbol hfree) (ih before)

/-- A scan of all words comes to what is said of it. -/
theorem ends (ws : List Word) : Ends { words := ws } (extract ws) := by
  have hall := ends_between [] {} ws
  have hsame : (extractAfter {} ws).map (fun r => ([] ++ r.1, r.2)) = extract ws := by
    rw [extract]
    cases extractAfter {} ws <;> rfl
  rwa [hsame] at hall

end Scan

/-! ## Success -/

/-- The words fall into these parts, and no stream is redirected twice. -/
structure Segmentation (ws : List Word) (parts : List Part) : Prop where
  words : parts.flatMap Part.words = ws
  once : ∀ d, (targets d parts).length ≤ 1

/-- All paths of the redirections. -/
def paths (r : Redirects) : List Word :=
  (r.get .input).toList ++ (r.get .output).toList

variable {ws left : List Word} {r : Redirects} {parts : List Part} {d : Direction} {fault : Fault}

/-- Words fall into parts in one way at most, since each word says whether it is plain or announces
a path. -/
theorem segmentation_unique {parts' : List Part} (h : Segmentation ws parts)
    (h' : Segmentation ws parts') : parts' = parts :=
  flatMap_words_injective (h'.words.trans h.words.symm)

/-- The redirections that the parts give. -/
def given (parts : List Part) : Redirects where
  input := (targets .input parts).head?
  output := (targets .output parts).head?

/-- Two words that may be missing are the same if the lists of them are. -/
theorem eq_of_toList_eq {a b : Option Word} (h : a.toList = b.toList) : a = b := by
  cases a <;> cases b
  · rfl
  · exact nomatch h
  · exact nomatch h
  · exact congrArg some (List.cons.inj h).1

/-- The redirections that parts give have, for each stream, the path of its only pair, or none. -/
theorem toList_get_given (honce : (targets d parts).length ≤ 1) :
    ((given parts).get d).toList = targets d parts := by
  have hhead : (given parts).get d = (targets d parts).head? := by cases d <;> rfl
  rw [hhead]
  match htargets : targets d parts with
  | [] => rfl
  | [path] => rfl
  | _ :: _ :: _ => simp [htargets] at honce

/-- **The words can be taken apart exactly if they fall into parts**, and the parts say what is left
and what was found. -/
theorem extract_eq_ok_iff_segmentation : extract ws = .ok (left, r) ↔
    ∃ parts, Segmentation ws parts ∧ left = plainWords parts ∧ r = given parts := by
  rw [extract_eq_ok_iff]
  constructor
  · rintro ⟨parts, hwords, hleft, htargets⟩
    have honce : ∀ d, (targets d parts).length ≤ 1 := by
      intro d
      rw [htargets d]
      cases r.get d <;> simp
    refine ⟨parts, ⟨hwords, honce⟩, hleft.symm, ext_get fun d => ?_⟩
    exact eq_of_toList_eq ((htargets d).symm.trans (toList_get_given (honce d)).symm)
  · rintro ⟨parts, h, rfl, rfl⟩
    exact ⟨parts, h.words, rfl, fun d => (toList_get_given (h.once d)).symm⟩

/-- A pair takes two words and a plain word one. -/
theorem length_flatMap_words (parts : List Part) : (parts.flatMap Part.words).length =
    (plainWords parts).length +
      2 * ((targets .input parts).length + (targets .output parts).length) := by
  induction parts with
  | nil => rfl
  | cons part parts ih =>
      rw [List.flatMap_cons, List.length_append, ih]
      cases part with
      | plain word hplain =>
          have hleft : plainWords (.plain word hplain :: parts) = word :: plainWords parts := rfl
          have hsame : ∀ d, targets d (.plain word hplain :: parts) = targets d parts :=
            fun _ => rfl
          rw [hleft, hsame, hsame, Part.words, List.length_cons, List.length_cons, List.length_nil]
          omega
      | pair d path =>
          have hleft : plainWords (.pair d path :: parts) = plainWords parts := rfl
          have hpath : ∀ e, (targets e (.pair d path :: parts)).length =
              (targets e parts).length + if d = e then 1 else 0 := by
            intro e
            by_cases he : d = e <;> simp [targets, Part.target?, he]
          rw [hleft, hpath, hpath, Part.words]
          cases d <;> simp <;> omega

/-- A word that is left as plain is no symbol, so extracting once more would find nothing. -/
theorem ofWord?_of_mem_plainWords {w : Word} (h : w ∈ plainWords parts) :
    Direction.ofWord? w = none := by
  obtain ⟨part, -, hword⟩ := List.mem_filterMap.mp h
  cases part with
  | plain word hplain => exact Option.some.inj hword ▸ hplain
  | pair d path => exact nomatch hword

/-- Words without a symbol stay as they are, and no stream is redirected. -/
theorem extract_of_plain (hplain : ∀ w ∈ ws, Direction.ofWord? w = none) :
    extract ws = .ok (ws, {}) := by
  unfold extract
  induction ws with
  | nil => rfl
  | cons w ws ih =>
      obtain ⟨hfirst, hrest⟩ := List.forall_mem_cons.mp hplain
      rw [extractAfter_plain hfirst, ih hrest]
      rfl

/-! ## Failure -/

/-- The words fall into parts up to a symbol that cannot have a path, since it is the last word,
whether its stream is redirected already or not, or that must not have the path after it, since its
stream is. -/
inductive Stumbles (ws : List Word) : Fault → Prop where
  | atEnd {front : List Word} {parts : List Part} {d : Direction}
      (hfront : Segmentation front parts) (hwords : ws = front ++ [d.symbol]) :
      Stumbles ws (.missingPath d)
  | twice {front : List Word} {parts : List Part} {d : Direction} {path : Word} {rest : List Word}
      (hfront : Segmentation front parts) (hwords : ws = front ++ d.symbol :: path :: rest)
      (htaken : targets d parts ≠ []) : Stumbles ws (.repeated d)

/-- Going through parts that redirect no stream twice finds what they give. -/
theorem extractAfter_flatMap_words (found : Redirects) (parts : List Part) (rest : List Word)
    (honce : ∀ d, ((found.get d).toList ++ targets d parts).length ≤ 1) :
    ∃ found', (∀ d, (found'.get d).toList = (found.get d).toList ++ targets d parts) ∧
      extractAfter found (parts.flatMap Part.words ++ rest) =
        (extractAfter found' rest).map fun r => (plainWords parts ++ r.1, r.2) := by
  induction parts generalizing found with
  | nil =>
      refine ⟨found, fun d => (List.append_nil _).symm, ?_⟩
      cases hrest : extractAfter found rest <;> simp [hrest, Except.map, plainWords]
  | cons part parts ih =>
      cases part with
      | plain word hplain =>
          obtain ⟨found', hget, hrun⟩ := ih found honce
          refine ⟨found', hget, ?_⟩
          have hwords : (Part.plain word hplain :: parts).flatMap Part.words ++ rest =
              word :: (parts.flatMap Part.words ++ rest) := rfl
          rw [hwords, extractAfter_plain hplain, hrun]
          cases extractAfter found' rest <;> rfl
      | pair d path =>
          have hfree : found.get d = none := by
            have hd := honce d
            cases hget : found.get d with
            | none => rfl
            | some old => simp [hget, targets, Part.target?] at hd
          -- The path moves from the parts to what was found.
          have hmoved : ∀ e, ((found.set d path).get e).toList ++ targets e parts =
              (found.get e).toList ++ targets e (.pair d path :: parts) := by
            intro e
            by_cases he : e = d
            · subst he
              simp [targets, Part.target?, hfree]
            · have hne : ¬ d = e := fun h => he h.symm
              simp [targets, Part.target?, hne, get_set_of_ne found path he]
          have honce' : ∀ e, (((found.set d path).get e).toList ++ targets e parts).length ≤ 1 :=
            fun e => by rw [hmoved]; exact honce e
          obtain ⟨found', hget, hrun⟩ := ih (found.set d path) honce'
          refine ⟨found', fun e => (hget e).trans (hmoved e), ?_⟩
          have hwords : (Part.pair d path :: parts).flatMap Part.words ++ rest =
              d.symbol :: path :: (parts.flatMap Part.words ++ rest) := rfl
          have hnot : ¬ (found.get d).isSome = true := by simp [hfree]
          rw [hwords, extractAfter_pair, if_neg hnot, hrun]
          rfl

/-- Behind words that fall into parts the extraction goes on with what these parts have given, and
keeps their plain words in front. -/
theorem extract_of_segmentation {front : List Word} (h : Segmentation front parts)
    (rest : List Word) : extract (front ++ rest) =
      (extractAfter (given parts) rest).map fun r => (plainWords parts ++ r.1, r.2) := by
  have honce : ∀ d, ((({} : Redirects).get d).toList ++ targets d parts).length ≤ 1 := by
    intro d
    have hd := h.once d
    cases d <;> exact hd
  obtain ⟨found, hget, hrun⟩ := extractAfter_flatMap_words {} parts rest honce
  have hsame : found = given parts := ext_get fun d => by
    apply eq_of_toList_eq
    rw [hget, toList_get_given (h.once d)]
    cases d <;> rfl
  rw [extract, ← h.words, hrun, hsame]

/-- A fault that is found after some parts stands behind them and perhaps some more. -/
theorem stumbles_of_extractAfter {found : Redirects} {front : List Word}
    (hfront : Segmentation front parts) (hfound : found = given parts)
    (h : extractAfter found ws = .error fault) : Stumbles (front ++ ws) fault := by
  fun_induction extractAfter found ws generalizing front parts with
  | case1 => cases h
  | case2 => cases h
  | case3 found w d hsymbol =>
      obtain rfl := Except.error.inj h
      obtain rfl := Direction.ofWord?_eq_some_iff.mp hsymbol
      exact .atEnd hfront rfl
  | case4 found w path rest hplain ih =>
      have hrest : extractAfter found (path :: rest) = .error fault := by
        cases hrun : extractAfter found (path :: rest) with
        | error other =>
            rw [hrun] at h
            exact congrArg Except.error (Except.error.inj h)
        | ok r =>
            rw [hrun] at h
            cases h
      have htargets : ∀ d, targets d (parts ++ [.plain w hplain]) = targets d parts := by
        intro d
        simp [targets, Part.target?]
      have hmore : Segmentation (front ++ [w]) (parts ++ [.plain w hplain]) := by
        refine ⟨?_, fun d => by rw [htargets]; exact hfront.once d⟩
        rw [List.flatMap_append, hfront.words]
        rfl
      have hgiven : found = given (parts ++ [.plain w hplain]) := by
        rw [hfound, given, given, htargets, htargets]
      simpa using ih hmore hgiven hrest
  | case5 found w path rest d hsymbol htaken =>
      obtain rfl := Except.error.inj h
      obtain rfl := Direction.ofWord?_eq_some_iff.mp hsymbol
      refine .twice hfront rfl ?_
      rw [← toList_get_given (hfront.once d), ← hfound]
      intro hnone
      rw [Option.toList_eq_nil_iff.mp hnone] at htaken
      cases htaken
  | case6 found w path rest d hsymbol hfree ih =>
      obtain rfl := Direction.ofWord?_eq_some_iff.mp hsymbol
      have hnone : targets d parts = [] := by
        rw [← toList_get_given (hfront.once d), ← hfound]
        simpa using hfree
      have htargets : ∀ e, targets e (parts ++ [.pair d path]) =
          if e = d then [path] else targets e parts := by
        intro e
        by_cases he : e = d
        · subst he
          simpa [targets, Part.target?] using hnone
        · have hne : ¬ d = e := fun h => he h.symm
          simp [targets, Part.target?, he, hne]
      have hmore : Segmentation (front ++ [d.symbol, path]) (parts ++ [.pair d path]) := by
        refine ⟨?_, fun e => ?_⟩
        · rw [List.flatMap_append, hfront.words]
          rfl
        · rw [htargets]
          split
          · exact Nat.le_refl 1
          · exact hfront.once e
      have hgiven : found.set d path = given (parts ++ [.pair d path]) := by
        refine ext_get fun e => eq_of_toList_eq ?_
        rw [toList_get_given (hmore.once e), htargets]
        by_cases he : e = d
        · subst he
          simp
        · rw [get_set_of_ne found path he, if_neg he, hfound, toList_get_given (hfront.once e)]
      simpa using ih hmore hgiven h

/-- **Where extraction fails, and why**: the words fall into parts up to the first symbol that
cannot have a path or must not have another. -/
theorem extract_eq_error_iff : extract ws = .error fault ↔ Stumbles ws fault := by
  constructor
  · intro h
    have hnothing : Segmentation [] [] := ⟨rfl, fun _ => Nat.zero_le 1⟩
    exact stumbles_of_extractAfter hnothing rfl h
  · intro h
    cases h with
    | @atEnd front parts d hfront hwords =>
        rw [hwords, extract_of_segmentation hfront, extractAfter, Direction.ofWord?_symbol]
        rfl
    | @twice front parts d path rest hfront hwords htaken =>
        have hset : ((given parts).get d).isSome = true := by
          rw [← toList_get_given (hfront.once d)] at htaken
          cases hget : (given parts).get d with
          | none => exact absurd (by rw [hget]; rfl) htaken
          | some old => rfl
        rw [hwords, extract_of_segmentation hfront, extractAfter_pair, if_pos hset]
        rfl

-- A symbol can be a path, and one at the end lacks its own even if it repeats.
example : extract [['>'], ['<'], ['>']] = .error (.missingPath .output) := by rfl

/-! ## The result -/

/-- **Taking out the redirections is to find the parts.**  A scan in place ends, never asks for a
word that is not there, and comes to the same.  It succeeds exactly if the words fall into plain
words and pairs with one path at most for each stream, which they do in one way only; then the plain
words are left, in order, and the paths are found, so two words have gone for each path, no symbol
is left, and to do it again finds nothing.  Otherwise it fails, at the first symbol that is the last
word or that redirects a stream again. -/
theorem extraction_by_parts (ws : List Word) :
    Scan.Ends { words := ws } (extract ws) ∧
    ((∃ result, extract ws = .ok result) ↔ ∃! parts, Segmentation ws parts) ∧
    (∀ left r, extract ws = .ok (left, r) ↔
      (∃ parts, Segmentation ws parts ∧ left = plainWords parts ∧
        ∀ d, (r.get d).toList = targets d parts) ∧
      left.length + 2 * r.paths.length = ws.length ∧ (∀ w ∈ left, ∀ d, w ≠ Direction.symbol d) ∧
      extract left = .ok (left, {})) ∧
    ∀ fault, extract ws = .error fault ↔ Stumbles ws fault := by
  refine ⟨Scan.ends ws, ?_, fun left r => ⟨fun h => ?_, ?_⟩, fun fault => extract_eq_error_iff⟩
  · constructor
    · rintro ⟨⟨left, r⟩, h⟩
      obtain ⟨parts, hparts, -, -⟩ := extract_eq_ok_iff_segmentation.mp h
      exact ⟨parts, hparts, fun other hother => segmentation_unique hparts hother⟩
    · rintro ⟨parts, hparts, -⟩
      exact ⟨_, extract_eq_ok_iff_segmentation.mpr ⟨parts, hparts, rfl, rfl⟩⟩
  · obtain ⟨parts, hparts, rfl, rfl⟩ := extract_eq_ok_iff_segmentation.mp h
    have htargets : ∀ d, ((given parts).get d).toList = targets d parts := fun d =>
      toList_get_given (hparts.once d)
    have hplain : ∀ w ∈ plainWords parts, Direction.ofWord? w = none := fun w =>
      ofWord?_of_mem_plainWords
    refine ⟨⟨parts, hparts, rfl, htargets⟩, ?_, fun w hw d hsymbol => ?_, extract_of_plain hplain⟩
    · rw [paths, List.length_append, htargets, htargets, ← hparts.words, length_flatMap_words]
    · have hnone := hplain w hw
      rw [hsymbol, Direction.ofWord?_symbol] at hnone
      exact nomatch hnone
  · rintro ⟨⟨parts, hparts, rfl, htargets⟩, -⟩
    refine extract_eq_ok_iff_segmentation.mpr ⟨parts, hparts, rfl, ext_get fun d => ?_⟩
    exact eq_of_toList_eq ((htargets d).trans (toList_get_given (hparts.once d)).symm)

end Conch.Redirects
