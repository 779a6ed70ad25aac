import Conch.Text.Blank

/-!
# The words of a text

Reading words off a text undoes writing them down with blanks between them.  `Spaced ws t` says that
`t` is the words `ws`, each of them followed by a blank or the end of the text, with any further
blanks between them and at both ends; `spaced_iff` says that these are the texts with the words
`ws`, so a text has its words in one way only.
-/

namespace Conch.Text

/-- The text holds nothing but blanks. -/
def AllBlank (t : Text) : Prop :=
  ∀ c ∈ t, isBlank c = true

/-- Not empty, and without blanks. -/
structure IsWord (w : Word) : Prop where
  nonempty : w ≠ []
  solid : ∀ c ∈ w, isBlank c = false

/-- The text is these words, with blanks between any two of them and perhaps around them: a first
word has nothing or a blank after it, and no word at all leaves only blanks. -/
inductive Spaced : List Word → Text → Prop where
  | nil {blanks : Text} (hblanks : AllBlank blanks) : Spaced [] blanks
  | cons {lead w rest : Text} {ws : List Word} (hlead : AllBlank lead) (hword : IsWord w)
      (hgap : ∀ c ∈ rest.head?, isBlank c = true) (hrest : Spaced ws rest) :
      Spaced (w :: ws) (lead ++ (w ++ rest))

/-! ## Reading -/

/-- A blank before a text does not change its words. -/
theorem words_blank {c : Char} (hc : isBlank c = true) (t : Text) : words (c :: t) = words t := by
  rw [words, if_pos hc]

/-- Any number of blanks before a text do not change its words. -/
theorem words_lead {lead : Text} (hlead : AllBlank lead) (t : Text) :
    words (lead ++ t) = words t := by
  induction lead with
  | nil => rfl
  | cons c lead ih =>
      rw [List.cons_append, words_blank (hlead c List.mem_cons_self)]
      exact ih fun d hd => hlead d (List.mem_cons_of_mem c hd)

/-- A word is not continued by a text that is empty or begins with a blank. -/
theorem continuesWord_eq_false_iff {t : Text} :
    continuesWord t = false ↔ ∀ c ∈ t.head?, isBlank c = true := by
  cases t with
  | nil => simp [continuesWord]
  | cons c t => simp [continuesWord]

/-- A word is read as a whole if a blank or the end comes after it. -/
theorem words_word {w rest : Text} (hword : IsWord w)
    (hgap : ∀ c ∈ rest.head?, isBlank c = true) : words (w ++ rest) = w :: words rest := by
  obtain ⟨hne, hsolid⟩ := hword
  induction w with
  | nil => exact absurd rfl hne
  | cons c w ih =>
      have hc : ¬ isBlank c = true := by simp [hsolid c List.mem_cons_self]
      rw [List.cons_append, words, if_neg hc]
      cases w with
      | nil =>
          rw [List.nil_append, continuesWord_eq_false_iff.mpr hgap]
          rfl
      | cons d w =>
          have hd : isBlank d = false := hsolid d (by simp)
          have hgoes : continuesWord (d :: w ++ rest) = true := by
            rw [List.cons_append, continuesWord, hd]
            rfl
          have hothers := ih (List.cons_ne_nil d w) fun e he =>
            hsolid e (List.mem_cons_of_mem c he)
          rw [if_pos hgoes, hothers]
          rfl

/-- **Words with blanks between them are the words of their text**: whoever cuts the text finds them
again. -/
theorem words_of_spaced {ws : List Word} {t : Text} (h : Spaced ws t) : words t = ws := by
  induction h with
  | nil hblanks =>
      have hread := words_lead hblanks []
      rw [List.append_nil] at hread
      exact hread
  | cons hlead hword hgap _ ih => rw [words_lead hlead, words_word hword hgap, ih]

/-! ## Writing -/

/-- A word at the very front of a text needs no blank before it. -/
theorem Spaced.front {w rest : Text} {ws : List Word} (hword : IsWord w)
    (hgap : ∀ c ∈ rest.head?, isBlank c = true) (hrest : Spaced ws rest) :
    Spaced (w :: ws) (w ++ rest) := by
  have hnone : AllBlank [] := by simp [AllBlank]
  have hspaced := Spaced.cons hnone hword hgap hrest
  exact hspaced

/-- One more blank may come before a text with these words. -/
theorem Spaced.blank_cons {ws : List Word} {t : Text} {c : Char} (hc : isBlank c = true)
    (h : Spaced ws t) : Spaced ws (c :: t) := by
  have hmore : ∀ {blanks : Text}, AllBlank blanks → AllBlank (c :: blanks) := by
    intro blanks hblanks d hd
    rcases List.mem_cons.mp hd with rfl | hd
    · exact hc
    · exact hblanks d hd
  cases h with
  | nil hblanks => exact .nil (hmore hblanks)
  | cons hlead hword hgap hrest =>
      have hlonger := Spaced.cons (hmore hlead) hword hgap hrest
      exact hlonger

/-- One more character comes to the first word, if the text begins with it. -/
theorem Spaced.consToFirst {ws : List Word} {c d : Char} {t : Text} (hc : isBlank c = false)
    (hd : isBlank d = false) (h : Spaced ws (d :: t)) :
    Spaced (consToFirst c ws) (c :: d :: t) := by
  generalize htext : d :: t = text at h
  cases h with
  | nil hblanks =>
      subst htext
      have hblank := hblanks d List.mem_cons_self
      rw [hd] at hblank
      exact nomatch hblank
  | @cons lead w rest ws hlead hword hgap hrest =>
      -- The text begins with a character of the word, so no blank comes before the word.
      cases lead with
      | cons b lead =>
          have hbd : d = b := (List.cons.inj htext).1
          have hblank := hlead b List.mem_cons_self
          rw [← hbd, hd] at hblank
          exact nomatch hblank
      | nil =>
          refine Spaced.front ⟨List.cons_ne_nil c w, ?_⟩ hgap hrest
          intro e he
          rcases List.mem_cons.mp he with rfl | he
          · exact hc
          · exact hword.solid e he

/-- **The words of a text, with blanks between them, are the text**, so that cutting it loses
nothing but blanks. -/
theorem spaced_words (t : Text) : Spaced (words t) t := by
  induction t with
  | nil => exact .nil (by simp [AllBlank])
  | cons c t ih =>
      by_cases hc : isBlank c = true
      · rw [words_blank hc]
        exact ih.blank_cons hc
      rw [words, if_neg hc]
      have hsolid : isBlank c = false := by simpa using hc
      by_cases hgoes : continuesWord t = true
      · rw [if_pos hgoes]
        cases t with
        | nil => exact nomatch hgoes
        | cons d t => exact ih.consToFirst hsolid (by simpa [continuesWord] using hgoes)
      · rw [if_neg hgoes]
        have hgap := continuesWord_eq_false_iff.mp (Bool.eq_false_iff.mpr hgoes)
        have hsingle : IsWord [c] := ⟨List.cons_ne_nil c [], by simpa using hsolid⟩
        exact Spaced.front hsingle hgap ih

/-- **A text is its words with blanks between them**, and these are the only words that it is made
of in this way. -/
theorem spaced_iff {ws : List Word} {t : Text} : Spaced ws t ↔ words t = ws := by
  constructor
  · exact words_of_spaced
  · rintro rfl
    exact spaced_words t

end Conch.Text
