import Conch.Proofs.Files.Following

/-!
# Trees in which little has changed

A path is followed by looking at a few things only: what is a directory, which one it is in, what it
names, and where links lead.  So in a tree in which a file has become empty (`Emptied`) all paths
lead where they led.

In a tree that has grown by one file (`Grown`) a path leads where it led, or it leads to the new
file, which is the end of all ways since it is no directory and no link.  So every path that led to
another file still does, and no path has come to lead to one (`Grown.findFor_iff`); and whoever came
to the vacant name before comes to the file now (`Grown.resolve_vacant`).
-/

namespace Conch

/-- What a file is when it has been made empty; it may be used as before. -/
def Node.emptied : Node → Node
  | .file _ mode => .file [] mode
  | node => node

/-- Names lead nowhere, or to a vacant name. -/
def Stretch.Strays : Stretch → Prop
  | .whole (.found _) => False
  | .whole (.vacant _ _) => True
  | .link _ _ _ => False
  | .failed _ => True

/-- Names lead to a certain file, or nowhere. -/
def Stretch.EndsAt (file : FileId) (s : Stretch) : Prop :=
  s = .whole (.found file) ∨ ∃ errno, s = .failed errno

/-- Names lead where they led, and that was not to a certain vacant name; or they led nowhere and
lead to a certain file at best, and do so if they led to the vacant name. -/
def Stretch.Parts (directory : FileId) (name : Text) (file : FileId) (before after : Stretch) :
    Prop :=
  (after = before ∧ before ≠ .whole (.vacant directory name)) ∨
    (before.Strays ∧ after.EndsAt file ∧
      (before = .whole (.vacant directory name) → after = .whole (.found file)))

namespace FileTree

variable {t t' : FileTree} {purpose : Purpose} {here directory file : FileId} {name : Text}
  {names : List Text} {links : Nat}

/-! ## One step on a way -/

section Related

variable {R : Stretch → Stretch → Prop} {rest : List Text}
  (hrefl : ∀ s, (∀ d n, s = .whole (.vacant d n) → t'.entry? d n = none) → R s s)
  (hrest : ∀ next, R (t.stretch purpose next rest) (t'.stretch purpose next rest))

include hrefl hrest

/-- Steps in two trees come to related results, if all that may follow them does. -/
theorem stretch_cons_related (hdirectory : t'.isDirectory here = t.isDirectory here)
    (hparent : t'.parent here = t.parent here)
    (hlook : R (t.look purpose here name rest) (t'.look purpose here name rest)) :
    R (t.stretch purpose here (name :: rest)) (t'.stretch purpose here (name :: rest)) := by
  rw [stretch_cons_eq, stretch_cons_eq, hdirectory, hparent]
  split
  · exact hrefl _ nofun
  split
  · exact hrest here
  split
  · exact hrest (t.parent here)
  split
  · exact hrefl _ nofun
  split
  · exact hrefl _ nofun
  · exact hlook

/-- The same links are in both trees. -/
def SameLinks (t t' : FileTree) : Prop :=
  ∀ file target, t'.node? file = some (.link target) ↔ t.node? file = some (.link target)

/-- A name that is looked up and stands for the same in both trees. -/
theorem look_related (hlinks : SameLinks t t') (hentry : t'.entry? here name = t.entry? here name) :
    R (t.look purpose here name rest) (t'.look purpose here name rest) := by
  unfold look
  rw [hentry]
  cases hfound : t.entry? here name with
  | none =>
      dsimp only
      split
      · apply hrefl
        intro d n hvacant
        obtain ⟨rfl, rfl⟩ := Destination.vacant.inj (Stretch.whole.inj hvacant)
        exact hentry.trans hfound
      · exact hrefl _ nofun
  | some next =>
      dsimp only
      by_cases hlink : ∃ target, t.node? next = some (.link target)
      · obtain ⟨target, hthere⟩ := hlink
        rw [hthere, (hlinks next target).mpr hthere]
        dsimp only
        split
        · exact hrefl _ nofun
        · exact hrefl _ nofun
      · have hplain : ∀ target, t.node? next ≠ some (.link target) := fun target h =>
          hlink ⟨target, h⟩
        have hplain' : ∀ target, t'.node? next ≠ some (.link target) := fun target h =>
          hlink ⟨target, (hlinks next target).mp h⟩
        split
        · next target hthere => exact absurd hthere (hplain target)
        · exact hrest next

end Related

/-- Names that lead nowhere, or to a vacant name, do not lead to any file, however links are
followed. -/
theorem follow_ne_of_strays (h : (t.stretch purpose here names).Strays) (file : FileId) :
    t.follow purpose links here names ≠ .ok (.found file) := by
  cases hstretch : t.stretch purpose here names with
  | whole destination =>
      rw [follow_of_whole hstretch]
      rw [hstretch] at h
      cases destination with
      | found file => exact h.elim
      | vacant directory name => exact nofun
  | failed errno =>
      rw [follow_of_failed hstretch]
      exact nofun
  | link directory target rest =>
      rw [hstretch] at h
      exact h.elim

/-- Who comes to a file that is the only one to come to. -/
theorem eq_of_follow_eq_found (h : (t.stretch purpose here names).EndsAt file) {other : FileId}
    (hfollow : t.follow purpose links here names = .ok (.found other)) : other = file := by
  rcases h with hfound | ⟨errno, hfailed⟩
  · rw [follow_of_whole hfound] at hfollow
    exact (Destination.found.inj (Except.ok.inj hfollow)).symm
  · rw [follow_of_failed hfailed] at hfollow
    exact nomatch hfollow

/-! ## A file that has become empty -/

/-- A file that was there has become empty, and nothing else has changed. -/
structure Emptied (t t' : FileTree) (file : FileId) : Prop where
  old : ∃ node, t.node? file = some node ∧ node.isDirectory = false
  empty : t'.node? file = (t.node? file).map Node.emptied
  others : ∀ other ≠ file, t'.node? other = t.node? other

/-- Emptying makes no link and removes none, since a file that is emptied keeps what it is. -/
theorem Emptied.sameLinks (h : Emptied t t' file) : SameLinks t t' := by
  intro other target
  by_cases hfile : other = file
  · obtain ⟨node, hnode, -⟩ := h.old
    rw [hfile, h.empty, hnode]
    cases node <;> simp [Node.emptied]
  · rw [h.others other hfile]

/-- No directory is emptied, so each of them is in the same one and has the same entries. -/
theorem Emptied.passing (h : Emptied t t' file) (here : FileId) (name : Text) :
    t'.isDirectory here = t.isDirectory here ∧ t'.parent here = t.parent here ∧
      t'.entry? here name = t.entry? here name := by
  unfold isDirectory parent entry? entries
  by_cases hfile : here = file
  · obtain ⟨node, hnode, hplain⟩ := h.old
    rw [hfile, h.empty, hnode]
    cases node with
    | directory parent entries => exact nomatch hplain
    | _ => exact ⟨rfl, rfl, rfl⟩
  · rw [h.others here hfile]
    exact ⟨rfl, rfl, rfl⟩

/-- Emptying a file takes no file away and adds none. -/
theorem Emptied.isSome_node? (h : Emptied t t' file) (other : FileId) :
    (t'.node? other).isSome = (t.node? other).isSome := by
  by_cases hfile : other = file
  · rw [hfile, h.empty, Option.isSome_map]
  · rw [h.others other hfile]

/-- Names are followed just as far when a file has become empty, since nobody goes through it. -/
theorem Emptied.stretch_eq (h : Emptied t t' file) (purpose : Purpose) (here : FileId)
    (names : List Text) : t'.stretch purpose here names = t.stretch purpose here names := by
  induction names generalizing here with
  | nil => rw [stretch, stretch, h.isSome_node?]
  | cons name names ih =>
      obtain ⟨hdirectory, hparent, hentry⟩ := h.passing here name
      have hlook : t'.look purpose here name names = t.look purpose here name names :=
        look_related (R := fun s s' => s' = s) (fun _ _ => rfl) ih h.sameLinks hentry
      exact stretch_cons_related (R := fun s s' => s' = s) (fun _ _ => rfl) ih hdirectory hparent
        hlook

/-- **Emptying a file changes no way**: every path leads, from every directory, to where it led
before. -/
theorem Emptied.follow_eq (h : Emptied t t' file) (purpose : Purpose) (links : Nat) (here : FileId)
    (names : List Text) :
    t'.follow purpose links here names = t.follow purpose links here names := by
  induction links generalizing here names with
  | zero =>
      rw [follow, follow, h.stretch_eq]
  | succ links ih =>
      rw [follow, follow, h.stretch_eq]
      cases t.stretch purpose here names with
      | whole destination => rfl
      | failed errno => rfl
      | link directory target rest => exact ih _ _

/-- **Where paths lead is not changed** by what a file holds. -/
theorem Emptied.resolve_eq (h : Emptied t t' file) (purpose : Purpose) (here : FileId)
    (path : Text) : t'.resolve purpose here path = t.resolve purpose here path := by
  unfold resolve
  rw [h.follow_eq]

/-! ## A file that is new -/

/-- A file is there that was not, through which no way leads, and a directory has got a name for it,
at its end, that it did not have before.  The other files are the same. -/
structure Grown (t t' : FileTree) (directory : FileId) (name : Text) (file : FileId) (node : Node) :
    Prop where
  new : t.node? file = none
  made : t'.node? file = some node
  leaf : node.isDirectory = false ∧ node.isLink = false
  named : ∃ parent entries, t.node? directory = some (.directory parent entries) ∧
    entries.lookup name = none ∧
    t'.node? directory = some (.directory parent (entries ++ [(name, file)]))
  others : ∀ other ≠ file, other ≠ directory → t'.node? other = t.node? other

namespace Grown

variable {node : Node} (h : Grown t t' directory name file node)

include h

/-- The links are the same after a new file has got a name, since the file is no link. -/
theorem sameLinks : SameLinks t t' := by
  intro other target
  obtain ⟨parent, entries, hbefore, -, hafter⟩ := h.named
  by_cases hfile : other = file
  · rw [hfile, h.new, h.made]
    have hleaf := h.leaf.2
    cases node <;> simp_all [Node.isLink]
  · by_cases hdirectory : other = directory
    · rw [hdirectory, hbefore, hafter]
      simp
    · rw [h.others other hfile hdirectory]

/-- No file but the new one has come, and none has gone. -/
theorem isSome_node? {other : FileId} (hother : other ≠ file) :
    (t'.node? other).isSome = (t.node? other).isSome := by
  obtain ⟨parent, entries, hbefore, -, hafter⟩ := h.named
  by_cases hdirectory : other = directory
  · rw [hdirectory, hbefore, hafter]
    rfl
  · rw [h.others other hother hdirectory]

/-- What was there before is the same to who passes by, but for the new name. -/
theorem passing {other : FileId} (hother : other ≠ file) :
    t'.isDirectory other = t.isDirectory other ∧ t'.parent other = t.parent other ∧
      ∀ n, ¬ (other = directory ∧ n = name) → t'.entry? other n = t.entry? other n := by
  obtain ⟨parent, entries, hbefore, -, hafter⟩ := h.named
  unfold isDirectory FileTree.parent entry? FileTree.entries
  by_cases hdirectory : other = directory
  · rw [hdirectory, hbefore, hafter]
    refine ⟨rfl, rfl, fun n hn => ?_⟩
    have hne : (n == name) = false := by simpa [hdirectory] using hn
    rw [List.lookup_append, List.lookup_cons, hne, List.lookup_nil, Option.or_none]
  · rw [h.others other hother hdirectory]
    exact ⟨rfl, rfl, fun _ _ => rfl⟩

/-- The directory had no entry with the name before the file was there. -/
theorem entry?_before : t.entry? directory name = none := by
  obtain ⟨parent, entries, hbefore, hvacant, -⟩ := h.named
  unfold entry? FileTree.entries
  rw [hbefore]
  exact hvacant

/-- The entry that the directory has got with the name is that of the file. -/
theorem entry?_after : t'.entry? directory name = some file := by
  obtain ⟨parent, entries, -, hvacant, hafter⟩ := h.named
  unfold entry? FileTree.entries
  rw [hafter]
  dsimp only
  rw [List.lookup_append, hvacant, List.lookup_cons_self]
  rfl

/-- From the file nothing leads on: it is the end of a path, or the path fails there. -/
theorem stretch_file (purpose : Purpose) (names : List Text) :
    t'.stretch purpose file names = .whole (.found file) ∨
      ∃ errno, t'.stretch purpose file names = .failed errno := by
  cases names with
  | nil => exact .inl (by rw [stretch, h.made]; rfl)
  | cons n names =>
      have hnot : t'.isDirectory file = false := by
        rw [isDirectory, h.made]
        exact h.leaf.1
      exact .inr ⟨.notDirectory, by rw [stretch, hnot]; rfl⟩

/-- Before the file is there its name is vacant, and nothing can be found behind it. -/
theorem look_before (rest : List Text) : t.look purpose directory name rest =
    if rest = [] then .whole (.vacant directory name) else .failed .noEntry := by
  rw [look, h.entry?_before]

/-- When the file is there its name leads to it. -/
theorem look_after (rest : List Text) :
    t'.look purpose directory name rest = t'.stretch purpose file rest := by
  have hleaf := h.leaf.2
  rw [look, h.entry?_after]
  dsimp only
  rw [h.made]
  cases node with
  | link target => exact nomatch hleaf
  | _ => rfl

/-- **Where names lead after the growth**: where they led, or to the new file. -/
theorem stretch_parts (purpose : Purpose) (here : FileId) (names : List Text) :
    (t.stretch purpose here names).Parts directory name file
      (t'.stretch purpose here names) := by
  have hsame : ∀ s : Stretch, (∀ d n, s = .whole (.vacant d n) → t'.entry? d n = none) →
      s.Parts directory name file s := by
    intro s hvacant
    refine .inl ⟨rfl, fun hs => ?_⟩
    have hnone := hvacant directory name hs
    rw [h.entry?_after] at hnone
    cases hnone
  induction names generalizing here with
  | nil =>
      by_cases hhere : here = file
      · have hbefore : t.stretch purpose here [] = .failed .noEntry := by
          rw [stretch, hhere, h.new]
          rfl
        rw [hbefore, hhere]
        exact .inr ⟨trivial, h.stretch_file purpose [], fun hvacant => by cases hvacant⟩
      · rw [stretch, stretch, h.isSome_node? hhere]
        split
        · exact hsame _ (by simp)
        · exact hsame _ (by simp)
  | cons n names ih =>
      by_cases hhere : here = file
      · have hbefore : t.stretch purpose here (n :: names) = .failed .notDirectory := by
          rw [stretch, hhere, isDirectory, h.new]
          rfl
        rw [hbefore, hhere]
        exact .inr ⟨trivial, h.stretch_file purpose (n :: names), fun hvacant => by cases hvacant⟩
      · obtain ⟨hdirectory, hparent, hentry⟩ := h.passing hhere
        refine stretch_cons_related hsame ih hdirectory hparent ?_
        by_cases hnew : here = directory ∧ n = name
        · -- here the ways part: the name was vacant, and is that of the file now
          rw [hnew.1, hnew.2, h.look_before, h.look_after]
          refine .inr ⟨by split <;> trivial, h.stretch_file purpose names, fun hvacant => ?_⟩
          split at hvacant
          · next hnothing => rw [hnothing, stretch, h.made]; rfl
          · cases hvacant
        · exact look_related hsame ih h.sameLinks (hentry n hnew)

/-- A link that was on the way is still there. -/
theorem stretch_link {back : FileId} {target : Text} {rest : List Text}
    (hlink : t.stretch purpose here names = .link back target rest) :
    t'.stretch purpose here names = .link back target rest := by
  rcases hlink ▸ h.stretch_parts purpose here names with ⟨hsame, -⟩ | ⟨hstrays, -⟩
  · exact hsame
  · exact hstrays.elim

/-- With links on the way the new file is found where the name was vacant. -/
theorem follow_vacant (purpose : Purpose) (links : Nat) (here : FileId) (names : List Text) :
    t.follow purpose links here names = .ok (.vacant directory name) →
      t'.follow purpose links here names = .ok (.found file) := by
  fun_induction t.follow purpose links here names with
  | case1 links here names destination hstretch =>
      intro hvacant
      obtain rfl := Except.ok.inj hvacant
      rcases hstretch ▸ h.stretch_parts purpose here names with ⟨-, hne⟩ | ⟨-, -, hfound⟩
      · exact absurd rfl hne
      · exact follow_of_whole (hfound rfl)
  | case2 | case3 =>
      intro hvacant
      cases hvacant
  | case4 here names back target rest hlink links ih =>
      intro hvacant
      rw [follow, h.stretch_link hlink]
      exact ih hvacant

/-- With links on the way the same files are found, but for the new one. -/
theorem follow_iff {other : FileId} (hother : other ≠ file) (purpose : Purpose) (links : Nat)
    (here : FileId) (names : List Text) :
    t'.follow purpose links here names = .ok (.found other) ↔
      t.follow purpose links here names = .ok (.found other) := by
  have hstray : ∀ {links here names}, (t.stretch purpose here names).Strays →
      (t'.stretch purpose here names).EndsAt file →
      (t'.follow purpose links here names = .ok (.found other) ↔
        t.follow purpose links here names = .ok (.found other)) := by
    intro links here names hstrays hends
    refine iff_of_false (fun hfollow => ?_) (follow_ne_of_strays hstrays other)
    exact hother (eq_of_follow_eq_found hends hfollow)
  induction links generalizing here names with
  | zero =>
      rcases h.stretch_parts purpose here names with ⟨hsame, -⟩ | ⟨hstrays, hends, -⟩
      · rw [follow, follow, hsame]
      · exact hstray hstrays hends
  | succ links ih =>
      rcases h.stretch_parts purpose here names with ⟨hsame, -⟩ | ⟨hstrays, hends, -⟩
      · rw [follow, follow, hsame]
        cases t.stretch purpose here names with
        | whole destination => exact Iff.rfl
        | failed errno => exact Iff.rfl
        | link directory target rest => exact ih _ _
      · exact hstray hstrays hends

/-- A path that led to the vacant name leads to the new file. -/
theorem resolve_vacant {here : FileId} {path : Text}
    (hvacant : t.resolve purpose here path = .ok (.vacant directory name)) :
    t'.resolve purpose here path = .ok (.found file) := by
  rw [resolve_eq_ok_iff] at hvacant ⊢
  exact ⟨hvacant.1, h.follow_vacant purpose _ _ _ hvacant.2⟩

/-- **Every path that led to another file still does, and no path has come to lead to one.** -/
theorem findFor_iff {other : FileId} (hother : other ≠ file) (purpose : Purpose) (here : FileId)
    (path : Text) :
    t'.findFor purpose here path = .ok other ↔ t.findFor purpose here path = .ok other := by
  rw [findFor_eq_ok_iff, findFor_eq_ok_iff, resolve_eq_ok_iff, resolve_eq_ok_iff,
    h.follow_iff hother]

end Grown

end FileTree

end Conch
