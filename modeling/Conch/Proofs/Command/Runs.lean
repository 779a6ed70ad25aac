import Conch.Proofs.Command.Expansion
import Mathlib.Data.List.SplitBy

/-!
# Runs of dollar signs

A word falls into maximal runs of dollar signs and of other characters (`runs`).  Expansion deals
with each run by itself: of a run of dollar signs each pair becomes the number, and an odd one stays
behind them; a run of other characters stays as it is (`expandWord_eq_flatMap_spell`).  The reason
is that a sign lies within one run: it is never looked for across the end of a run.

What is left of dollar signs after that stands alone, so there is nothing to expand any more
(`not_sign_expandWord`), whatever the number was.

* `expandWord_replicate`, `expandWord_append`: a run in front of a word;
* `expansion_by_runs`: the words of a line.
-/

namespace Conch.Expansion

open Text (decimal isDigit_of_mem_decimal decimal_ne_nil isBlank)

variable {digits w rest run : Text} {c : Char}

/-- Are the two characters both dollar signs, or neither? -/
def alike (c d : Char) : Bool :=
  (c == '$') == (d == '$')

/-- The maximal runs of dollar signs and of other characters in a word, in order. -/
def runs (w : Word) : List Word :=
  w.splitBy alike

/-- What becomes of a run: each pair of dollar signs becomes digits, and an odd one stays behind
them; other characters stay. -/
def spell (digits : Text) (run : Word) : Text :=
  if '$' ∈ run then
    (List.replicate (run.length / 2) digits).flatten ++ if run.length % 2 = 1 then ['$'] else []
  else run

/-! ## A run in front of a word -/

/-- A dollar sign that no other follows stays, since it is only half of a sign. -/
theorem expandWord_dollar (h : rest.head? ≠ some '$') :
    expandWord digits ('$' :: rest) = '$' :: expandWord digits rest := by
  apply expandWord_cons
  rw [sign_prefix_iff]
  rintro ⟨-, hhead⟩
  exact h hhead

/-- Dollar signs become digits in pairs, as long as no further one follows them. -/
theorem expandWord_replicate (digits : Text) (k : Nat) (h : rest.head? ≠ some '$') :
    expandWord digits (List.replicate k '$' ++ rest) =
      (List.replicate (k / 2) digits).flatten ++ (if k % 2 = 1 then ['$'] else []) ++
        expandWord digits rest := by
  induction k using Nat.twoStepInduction with
  | zero => rfl
  | one => exact expandWord_dollar h
  | more k ih _ =>
      have hpair : expandWord digits (List.replicate (k + 2) '$' ++ rest) =
          digits ++ expandWord digits (List.replicate k '$' ++ rest) := rfl
      have hhalf : (k + 2) / 2 = k / 2 + 1 := by omega
      have hodd : (k + 2) % 2 = k % 2 := by omega
      rw [hpair, ih, hhalf, hodd, List.replicate_succ, List.flatten_cons]
      simp only [List.append_assoc]

/-- What comes before the first dollar sign stays, and the expansion goes on behind it. -/
theorem expandWord_append (h : '$' ∉ w) (rest : Text) :
    expandWord digits (w ++ rest) = w ++ expandWord digits rest := by
  induction w with
  | nil => rfl
  | cons c w ih =>
      rw [List.mem_cons, not_or] at h
      have hgoes : ¬ sign <+: c :: (w ++ rest) := by
        rw [sign_prefix_iff]
        rintro ⟨rfl, -⟩
        exact h.1 rfl
      rw [List.cons_append, expandWord_cons hgoes, ih h.2, List.cons_append]

/-! ## Runs -/

/-- Two characters belong to one run if both are dollar signs or neither is. -/
theorem alike_eq_true_iff {c d : Char} : alike c d = true ↔ (c = '$' ↔ d = '$') := by
  rw [alike, beq_iff_eq, Bool.eq_iff_iff, beq_iff_eq, beq_iff_eq]

/-- A run with a dollar sign in it holds nothing else. -/
theorem eq_dollar_of_isChain (hrun : run.IsChain fun c d => alike c d = true) (h : '$' ∈ run) :
    ∀ c ∈ run, c = '$' := by
  induction run with
  | nil => exact nomatch h
  | cons c rest ih =>
      cases rest with
      | nil => simpa [eq_comm] using h
      | cons d rest =>
          rw [List.isChain_cons_cons, alike_eq_true_iff] at hrun
          have hrest : '$' ∈ d :: rest := by
            rcases List.mem_cons.mp h with heq | hmem
            · rw [hrun.1.mp heq.symm]
              exact List.mem_cons_self
            · exact hmem
          have hall := ih hrun.2 hrest
          have hd := hall d List.mem_cons_self
          exact List.forall_mem_cons.mpr ⟨hrun.1.mpr hd, hall⟩

/-- Each of a row of runs is expanded by itself. -/
theorem expandWord_flatten (digits : Text) {pieces : List Word} (hnonempty : [] ∉ pieces)
    (hruns : ∀ run ∈ pieces, run.IsChain fun c d => alike c d = true)
    (hmaximal : pieces.IsChain fun run next =>
      ∃ ha hb, alike (run.getLast ha) (next.head hb) = false) :
    expandWord digits pieces.flatten = pieces.flatMap (spell digits) := by
  induction pieces with
  | nil => rfl
  | cons run pieces ih =>
      rw [List.mem_cons, not_or] at hnonempty
      rw [List.forall_mem_cons] at hruns
      have hrest := ih hnonempty.2 hruns.2 hmaximal.tail
      rw [List.flatten_cons, List.flatMap_cons, spell, ← hrest]
      split
      · next hdollar =>
          have hall := eq_dollar_of_isChain hruns.1 hdollar
          have hends : pieces.flatten.head? ≠ some '$' := by
            cases pieces with
            | nil => exact nofun
            | cons next pieces =>
                obtain ⟨ha, hb, hapart⟩ := (List.isChain_cons_cons.mp hmaximal).1
                have hlast := hall _ (List.getLast_mem ha)
                intro hhead
                rw [List.flatten_cons, List.head?_append_of_ne_nil _ hb,
                  List.head?_eq_some_head hb, Option.some.injEq] at hhead
                rw [hlast, hhead] at hapart
                exact nomatch hapart
          have hexpanded := expandWord_replicate digits run.length hends
          rwa [← List.eq_replicate_length.mpr hall] at hexpanded
      · next hplain => exact expandWord_append hplain _

/-- **Expansion goes by the runs of a word.**  Each run of dollar signs is spelled by itself, in
pairs, and all other characters stay. -/
theorem expandWord_eq_flatMap_spell (digits w : Text) :
    expandWord digits w = (runs w).flatMap (spell digits) := by
  have hexpanded := expandWord_flatten digits (List.nil_notMem_splitBy alike w)
    (fun _ => List.isChain_of_mem_splitBy) (List.isChain_getLast_head_splitBy alike w)
  rwa [List.flatten_splitBy] at hexpanded

/-! ## What expansion leaves -/

/-- There is no sign in digits, nor at their end. -/
theorem sign_infix_append_iff (hdigits : '$' ∉ digits) :
    sign <:+: digits ++ w ↔ sign <:+: w := by
  induction digits with
  | nil => rfl
  | cons d digits ih =>
      rw [List.mem_cons, not_or] at hdigits
      have hgoes : ¬ sign <+: d :: (digits ++ w) := by
        rw [sign_prefix_iff]
        rintro ⟨rfl, -⟩
        exact hdigits.1 rfl
      rw [List.cons_append, List.infix_cons_iff, ih hdigits.2]
      exact or_iff_right hgoes

/-- A word that does not begin with a dollar sign does not come to begin with one by its
expansion. -/
theorem head?_expandWord {n : Nat} (h : w.head? ≠ some '$') :
    (expandWord (decimal n) w).head? ≠ some '$' := by
  fun_cases expandWord (decimal n) w with
  | case1 rest => exact absurd rfl h
  | case2 c rest => exact h
  | case3 => exact h

/-- **Nothing is left to expand**: no sign comes into being where digits meet the rest of the
word. -/
theorem not_sign_expandWord (n : Nat) (w : Word) : ¬ sign <:+: expandWord (decimal n) w := by
  fun_induction expandWord (decimal n) w with
  | case1 rest ih => rwa [sign_infix_append_iff (not_mem_decimal n)]
  | case2 c rest hother ih =>
      rw [List.infix_cons_iff, not_or]
      refine ⟨?_, ih⟩
      rw [sign_prefix_iff]
      rintro ⟨rfl, hhead⟩
      refine head?_expandWord (fun hdollar => ?_) hhead
      obtain ⟨more, rfl⟩ := List.head?_eq_some_iff.mp hdollar
      exact hother more rfl rfl
  | case3 => decide

/-- A digit is not blank, so that the process id never cuts a word in two. -/
theorem isBlank_eq_false_of_isDigit (h : c.isDigit = true) : isBlank c = false := by
  have hrange : 48 ≤ c.toNat ∧ c.toNat ≤ 57 := by
    simpa [Char.isDigit, UInt32.le_iff_toNat_le] using h
  simp [isBlank, Text.blankRanges]
  omega

/-- What is in a word after the expansion was in it before, or is a digit. -/
theorem mem_expandWord (h : c ∈ expandWord digits w) : c ∈ digits ∨ c ∈ w := by
  fun_induction expandWord digits w with
  | case1 rest ih =>
      rcases List.mem_append.mp h with hdigit | hrest
      · exact .inl hdigit
      · exact (ih hrest).imp_right fun hmem =>
          List.mem_cons_of_mem _ (List.mem_cons_of_mem _ hmem)
  | case2 d rest _ ih =>
      rcases List.mem_cons.mp h with rfl | hrest
      · exact .inr List.mem_cons_self
      · exact (ih hrest).imp_right (List.mem_cons_of_mem _)
  | case3 => exact .inr h

/-- Expansion makes no blanks, so that a word stays a single word. -/
theorem isBlank_of_mem_expandWord {n : Nat} (hw : ∀ c ∈ w, isBlank c = false)
    (h : c ∈ expandWord (decimal n) w) : isBlank c = false := by
  rcases mem_expandWord h with hdigit | hmem
  · exact isBlank_eq_false_of_isDigit (isDigit_of_mem_decimal hdigit)
  · exact hw c hmem

/-! ## The words of a line -/

/-- The words that have a meaning of their own to a line. -/
def operators : List Word :=
  [Direction.input.symbol, Direction.output.symbol, ['&']]

/-- What a word and the word it becomes have in common: a word does not become empty, one without
blanks gets none, and no operator is made or removed. -/
structure Keeps (w w' : Word) : Prop where
  empty : w' = [] ↔ w = []
  unbroken : (∀ c ∈ w, isBlank c = false) → ∀ c ∈ w', isBlank c = false
  operator : ∀ s ∈ operators, w' = s ↔ w = s

@[refl] theorem Keeps.refl (w : Word) : Keeps w w :=
  ⟨.rfl, id, fun _ _ => .rfl⟩

/-- The expansion of a word keeps what the rest of the parser looks at: blanks, operators, and
whether there is a word at all. -/
theorem keeps_expandWord (n : Nat) (w : Word) : Keeps w (expandWord (decimal n) w) := by
  refine ⟨expandWord_eq_nil_iff, fun hw c => isBlank_of_mem_expandWord hw, ?_⟩
  intro s hs
  obtain rfl | rfl | rfl : s = ['<'] ∨ s = ['>'] ∨ s = ['&'] := by
    simpa [operators, Direction.symbol] using hs
  all_goals exact expandWord_eq_singleton_iff (by decide) (by decide)

/-- What has been expanded stays as it is, even if it is expanded by another process. -/
theorem expand_expand (pid pid' : UInt32) (words : List Word) :
    expand pid' (expand pid words) = expand pid words := by
  cases words with
  | nil => rfl
  | cons first rest =>
      simp only [expand, List.map_map, List.cons.injEq, true_and]
      exact List.map_congr_left fun w _ => expandWord_of_no_sign (not_sign_expandWord pid.toNat w)

/-- **Expansion is exact and complete.**  It keeps the number and the order of the words, and the
first word as it is.  In every other word each maximal run of dollar signs becomes half as many
numbers, rounded down, and one dollar sign if it was odd, and all other characters stay in order.
After that there is no sign in these words, and expanding them again does nothing, for whatever
process.  No word becomes empty or gets a blank, and none becomes or ceases to be an operator. -/
theorem expansion_by_runs (pid : UInt32) (words : List Word) :
    (expand pid words).length = words.length ∧
    (expand pid words).head? = words.head? ∧
    (expand pid words).tail =
      words.tail.map (fun w => (runs w).flatMap (spell (decimal pid.toNat))) ∧
    (∀ w ∈ (expand pid words).tail, ¬ sign <:+: w) ∧
    (∀ pid', expand pid' (expand pid words) = expand pid words) ∧
    List.Forall₂ Keeps words (expand pid words) := by
  refine ⟨?_, ?_, ?_, ?_, fun pid' => expand_expand pid pid' words, ?_⟩
  · cases words <;> simp [expand]
  · cases words <;> rfl
  · cases words with
    | nil => rfl
    | cons first rest =>
        exact List.map_congr_left fun w _ => expandWord_eq_flatMap_spell _ w
  · cases words with
    | nil => exact fun _ h => nomatch h
    | cons first rest =>
        intro w hw
        obtain ⟨raw, -, rfl⟩ := List.mem_map.mp hw
        exact not_sign_expandWord _ raw
  · cases words with
    | nil => exact .nil
    | cons first rest =>
        refine .cons (.refl first) ?_
        rw [List.forall₂_map_right_iff, List.forall₂_same]
        exact fun w _ => keeps_expandWord _ w

/-- A run of five dollar signs, and one of a single dollar sign. -/
example : expand 42 ["p$$".toList, "a$$$$$b$".toList] = ["p$$".toList, "a4242$b$".toList] := by
  decide

end Conch.Expansion
