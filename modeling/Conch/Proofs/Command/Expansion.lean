import Conch.Command.Expansion
import Conch.Command.Redirects

/-!
# What expansion does to a word

`Replaces digits w w'` says that `w'` is `w` with digits in place of its double dollar signs, each
of which is the first one in what is left of the word after the one before it.  That is what
expansion does, and nothing else is (`replaces_iff`).

A word is a symbol after the expansion exactly if it was one before (`ofWord?_expandWord`): the
digits of a number are no symbols, and there is at least one of them.  Nor are they dollar signs, so
only a word without a sign stays as it is (`expandWord_eq_self_iff`).
-/

namespace Conch.Expansion

open Text (decimal decimal_ne_nil isDigit_of_mem_decimal)

variable {digits w rest : Text} {c : Char}

/-- What stands for the process id in a word. -/
def sign : Text := ['$', '$']

/-- Signs are replaced by digits, from left to right: the first sign of a word, which is one that no
other begins before, and then those of the rest. -/
inductive Replaces (digits : Text) : Word → Word → Prop where
  | done {w : Word} (hnone : ¬ sign <:+: w) : Replaces digits w w
  | next {before after after' : Word} (hfirst : ¬ sign <:+: before ++ ['$'])
      (hafter : Replaces digits after after') :
      Replaces digits (before ++ sign ++ after) (before ++ digits ++ after')

/-- The sign stands at the front of a word exactly if its first two characters are dollar signs,
which is what the expansion looks for. -/
theorem sign_prefix_iff : sign <+: c :: rest ↔ c = '$' ∧ rest.head? = some '$' := by
  cases rest with
  | nil => simp [sign, List.cons_prefix_cons]
  | cons d rest =>
      simp only [sign, List.cons_prefix_cons, List.nil_prefix, and_true, List.head?_cons,
        Option.some.injEq]
      constructor
      · rintro ⟨hc, hd⟩
        exact ⟨hc.symm, hd.symm⟩
      · rintro ⟨hc, hd⟩
        exact ⟨hc.symm, hd.symm⟩

/-- A character at which no sign begins is kept, and the expansion goes on behind it. -/
theorem expandWord_cons (h : ¬ sign <+: c :: rest) :
    expandWord digits (c :: rest) = c :: expandWord digits rest := by
  rw [expandWord]
  rintro more rfl rfl
  exact h (sign_prefix_iff.mpr ⟨rfl, rfl⟩)

/-- A word in which the sign does not occur stays as it is, whatever the digits are. -/
theorem expandWord_of_no_sign (h : ¬ sign <:+: w) : expandWord digits w = w := by
  induction w with
  | nil => rfl
  | cons c w ih =>
      rw [List.infix_cons_iff, not_or] at h
      rw [expandWord_cons h.1, ih h.2]

/-- As far as signs go, the sign after a text is as good as its first character. -/
theorem first_sign_cons {before after : Text} :
    ¬ sign <:+: c :: before ++ ['$'] ↔
      ¬ sign <+: c :: (before ++ sign ++ after) ∧ ¬ sign <:+: before ++ ['$'] := by
  have hhead : (before ++ ['$']).head? = (before ++ sign ++ after).head? := by
    cases before <;> rfl
  rw [List.cons_append, List.infix_cons_iff, not_or, sign_prefix_iff, sign_prefix_iff, hhead]

/-- Up to its first sign a word stays as it is. -/
theorem expandWord_of_first_sign {before after : Text} (h : ¬ sign <:+: before ++ ['$']) :
    expandWord digits (before ++ sign ++ after) =
      before ++ digits ++ expandWord digits after := by
  induction before with
  | nil => rfl
  | cons c before ih =>
      obtain ⟨hgoes, hrest⟩ := first_sign_cons.mp h
      rw [List.cons_append, List.cons_append, expandWord_cons hgoes, ih hrest]
      rfl

/-- **The expansion of a word follows the rule**: its signs are replaced from left to right, and no
other result follows it (`eq_expandWord`). -/
theorem replaces_expandWord (digits w : Text) : Replaces digits w (expandWord digits w) := by
  fun_induction expandWord digits w with
  | case1 rest ih =>
      have hnone : ¬ sign <:+: [] ++ ['$'] := by decide
      have hnext := Replaces.next hnone ih
      exact hnext
  | case2 c rest hother ih =>
      have hgoes : ¬ sign <+: c :: rest := by
        rw [sign_prefix_iff]
        rintro ⟨rfl, hhead⟩
        obtain ⟨more, rfl⟩ := List.head?_eq_some_iff.mp hhead
        exact hother more rfl rfl
      generalize expandWord digits rest = expanded at ih
      cases ih with
      | done hnone =>
          refine .done ?_
          rw [List.infix_cons_iff, not_or]
          exact ⟨hgoes, hnone⟩
      | next hfirst hafter =>
          have hnext := Replaces.next (first_sign_cons.mpr ⟨hgoes, hfirst⟩) hafter
          exact hnext
  | case3 => exact .done (by decide)

/-- **Expansion replaces the signs from left to right**, and what it makes of a word is the only
word that this rule allows. -/
theorem replaces_iff {w' : Word} : Replaces digits w w' ↔ expandWord digits w = w' := by
  constructor
  · intro h
    induction h with
    | done hnone => exact expandWord_of_no_sign hnone
    | next hfirst _ ih => rw [expandWord_of_first_sign hfirst, ih]
  · rintro rfl
    exact replaces_expandWord digits w

/-! ## Symbols -/

/-- No word disappears by its expansion: only the empty word becomes empty, since a sign is replaced
by one digit at least. -/
theorem expandWord_eq_nil_iff {n : Nat} : expandWord (decimal n) w = [] ↔ w = [] := by
  fun_cases expandWord (decimal n) w with
  | case1 rest => simp [decimal_ne_nil]
  | case2 c rest => simp
  | case3 => simp

/-- A character that is neither a digit nor a dollar sign stands alone after the expansion if it did
so before. -/
theorem expandWord_eq_singleton_iff {n : Nat} (hdollar : c ≠ '$')
    (hdigit : c.isDigit = false) : expandWord (decimal n) w = [c] ↔ w = [c] := by
  fun_cases expandWord (decimal n) w with
  | case1 rest =>
      constructor
      · intro h
        obtain ⟨d, digits, hdigits⟩ := List.exists_cons_of_ne_nil (decimal_ne_nil n)
        have hmem : d ∈ decimal n := by simp [hdigits]
        have hd : d.isDigit = true := isDigit_of_mem_decimal hmem
        rw [hdigits] at h
        obtain ⟨rfl, -⟩ := List.cons.inj h
        rw [hdigit] at hd
        exact nomatch hd
      · intro h
        obtain ⟨rfl, -⟩ := List.cons.inj h
        exact absurd rfl hdollar
  | case2 d rest => rw [List.cons.injEq, List.cons.injEq, expandWord_eq_nil_iff]
  | case3 => rfl

/-- Expansion makes no word a redirection symbol, and no symbol another word, so that the two can be
looked for in either order. -/
theorem ofWord?_expandWord (n : Nat) (w : Word) :
    Direction.ofWord? (expandWord (decimal n) w) = Direction.ofWord? w := by
  have hsymbol : ∀ d : Direction, expandWord (decimal n) w = d.symbol ↔ w = d.symbol := by
    intro d
    cases d with
    | input => exact expandWord_eq_singleton_iff (by decide) (by decide)
    | output => exact expandWord_eq_singleton_iff (by decide) (by decide)
  simp only [Direction.ofWord?, hsymbol]

/-! ## Words that stay as they are -/

/-- Expansion makes no dollar sign, if there is none among the digits. -/
theorem count_expandWord_le (hdigits : '$' ∉ digits) (w : Word) :
    (expandWord digits w).count '$' ≤ w.count '$' := by
  have hnone : digits.count '$' = 0 := List.count_eq_zero.mpr hdigits
  fun_induction expandWord digits w with
  | case1 rest ih =>
      rw [List.count_append, List.count_cons_self, List.count_cons_self]
      omega
  | case2 c rest _ ih =>
      rw [List.count_cons, List.count_cons]
      omega
  | case3 => exact Nat.le_refl _

/-- The digits of a number hold no dollar sign, so that no sign can come into being where some were
put in. -/
theorem not_mem_decimal (n : Nat) : '$' ∉ decimal n := by
  intro h
  have hdigit := isDigit_of_mem_decimal h
  exact absurd hdigit (by decide)

/-- A sign does not survive expansion, so only words without one stay as they are. -/
theorem expandWord_eq_self_iff {n : Nat} :
    expandWord (decimal n) w = w ↔ ¬ sign <:+: w := by
  refine ⟨fun hsame hsign => ?_, expandWord_of_no_sign⟩
  have hreplaces := replaces_expandWord (decimal n) w
  generalize hexpanded : expandWord (decimal n) w = expanded at hreplaces hsame
  cases hreplaces with
  | done hnone => exact hnone hsign
  | @next before after after' hfirst hafter =>
      have hfewer := count_expandWord_le (not_mem_decimal n) after
      rw [replaces_iff.mp hafter] at hfewer
      have hcount := congrArg (List.count '$') hsame
      have hdigits : (decimal n).count '$' = 0 := List.count_eq_zero.mpr (not_mem_decimal n)
      have htwo : sign.count '$' = 2 := rfl
      simp only [List.count_append, hdigits, htwo] at hcount
      omega

end Conch.Expansion
