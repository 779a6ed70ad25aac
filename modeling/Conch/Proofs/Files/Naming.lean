import Conch.Proofs.Files.Following

/-!
# The names of files

The path of a directory is put together going up: every directory is asked what the one before it
is called.  It is followed going down, so it leads back if the names in every directory are such as
a path can be made of, and no two files have the same name (`FileTree.isOrderly`).  All that is
left to go wrong is its length (`find_pathOf?`).
-/

namespace Conch

/-! ## The names in a path -/

namespace Path

/-- The names of a path that goes on from a piece of its first name. -/
theorem names_append {piece path first : Text} {others : List Text} (hpiece : separator ∉ piece)
    (hpath : names path = first :: others) :
    names (piece ++ path) = (piece ++ first) :: others := by
  induction piece with
  | nil => exact hpath
  | cons c piece ih =>
      rw [List.mem_cons, not_or] at hpiece
      rw [List.cons_append, names, if_neg (Ne.symm hpiece.1), ih hpiece.2]
      rfl

/-- A path that was made of names has those names, behind an empty one. -/
theorem names_flatMap {parts : List Text} (h : ∀ name ∈ parts, separator ∉ name) :
    names (parts.flatMap (separator :: ·)) = [] :: parts := by
  induction parts with
  | nil => rfl
  | cons name parts ih =>
      rw [List.forall_mem_cons] at h
      rw [List.flatMap_cons, List.cons_append, names, if_pos rfl, names_append h.1 (ih h.2),
        List.append_nil]

/-- A path that is made of names is absolute, since each name is put behind a slash. -/
theorem isAbsolute_ofNames (parts : List Text) : isAbsolute (ofNames parts) = true := by
  cases parts <;> rfl

/-- What goes on from an absolute path is absolute, whether it replaces the path or is put behind
it. -/
theorem isAbsolute_join {directory : Text} (h : isAbsolute directory = true) (path : Text) :
    isAbsolute (join directory path) = true := by
  unfold join
  obtain _ | ⟨c, directory⟩ := directory
  · exact nomatch h
  split
  · assumption
  · split <;> exact h

/-- A character of a path is a separator or in a name. -/
theorem mem_ofNames {parts : List Text} {c : Char} (h : c ∈ ofNames parts) :
    c = separator ∨ ∃ name ∈ parts, c ∈ name := by
  cases parts with
  | nil => exact .inl (List.mem_singleton.mp h)
  | cons name parts =>
      obtain ⟨part, hpart, hc⟩ := List.mem_flatMap.mp h
      rcases List.mem_cons.mp hc with rfl | hc
      · exact .inl rfl
      · exact .inr ⟨part, hpart, hc⟩

end Path

/-! ## The names in a directory -/

/-- Can something be called so? -/
def Path.isName (name : Text) : Bool :=
  name != [] && name != ['.'] && name != ['.', '.'] && !name.contains separator &&
    !name.contains '\x00' && Utf8.size name ≤ FileTree.nameLimit

/-- A name holds neither a slash nor a NUL character, so it is one part of a path and can be handed
to the system. -/
theorem Path.not_mem_of_isName {name : Text} (h : isName name = true) :
    separator ∉ name ∧ '\x00' ∉ name := by
  simp only [isName, Bool.and_eq_true, Bool.not_eq_true', List.contains_eq_mem,
    decide_eq_false_iff_not] at h
  exact ⟨h.1.1.2, h.1.2⟩

/-- If it is a directory, are the files in it called by different names? -/
def Node.isOrderly : Node → Bool
  | directory _ entries => entries.all (fun entry => Path.isName entry.1) &&
      (entries.map Prod.fst).Nodup
  | _ => true

namespace FileTree

/-- Are the files in every directory called by different names? -/
def isOrderly (t : FileTree) : Bool :=
  t.nodes.all Node.isOrderly

variable {t : FileTree} {directory file here : FileId} {name : Text}

theorem isDirectory_of_mem (h : (name, file) ∈ t.entries directory) :
    t.isDirectory directory = true := by
  unfold entries at h
  unfold isDirectory
  split at h
  · next hnode => rw [hnode]; rfl
  · exact nomatch h

/-- In an orderly tree a file that is in a directory is found there by its name. -/
theorem entry?_of_mem (horderly : t.isOrderly = true) (h : (name, file) ∈ t.entries directory) :
    Path.isName name = true ∧ t.entry? directory name = some file := by
  unfold entry?
  unfold entries at h ⊢
  split at h
  · next parent entries hnode =>
      have hnodes := Array.all_eq_true_iff_forall_mem.mp horderly _ (Array.mem_of_getElem? hnode)
      simp only [Node.isOrderly, Bool.and_eq_true, List.all_eq_true, decide_eq_true_eq] at hnodes
      obtain ⟨hnames, hdistinct⟩ := hnodes
      refine ⟨hnames _ h, ?_⟩
      obtain ⟨before, after, rfl⟩ := List.append_of_mem h
      rw [List.lookup_eq_some_iff]
      refine ⟨before, after, rfl, fun entry hentry => ?_⟩
      rw [List.map_append, List.nodup_append] at hdistinct
      have hother := hdistinct.2.2 _ (List.mem_map_of_mem hentry) name List.mem_cons_self
      simpa using hother.symm
  · exact nomatch h

/-- What a directory is called by the one it is in. -/
theorem mem_of_nameOf?_eq_some (h : t.nameOf? directory = some name) :
    (name, directory) ∈ t.entries (t.parent directory) := by
  obtain ⟨entry, hfind, rfl⟩ := Option.map_eq_some_iff.mp h
  have hsame : entry.2 = directory := by simpa using List.find?_some hfind
  have hmem : (entry.1, entry.2) ∈ t.entries (t.parent directory) :=
    List.mem_of_find?_eq_some hfind
  rwa [hsame] at hmem

/-- One step down, by the name of something that is no link. -/
theorem stretch_cons {rest : List Text} (horderly : t.isOrderly = true)
    (h : (name, file) ∈ t.entries directory)
    (hfile : ∀ target, t.node? file ≠ some (.link target)) :
    t.stretch .target directory (name :: rest) = t.stretch .target file rest := by
  obtain ⟨hname, hentry⟩ := entry?_of_mem horderly h
  simp only [Path.isName, Bool.and_eq_true, bne_iff_ne, ne_eq, decide_eq_true_eq] at hname
  obtain ⟨⟨⟨⟨⟨hnone, hdot⟩, hup⟩, -⟩, -⟩, hsize⟩ := hname
  rw [stretch, isDirectory_of_mem h, hentry]
  simp only [Bool.not_true, Bool.false_eq_true, if_false, hnone, hdot, hup, decide_false,
    Bool.or_false, Bool.false_and, reduceCtorEq, Nat.not_lt.mpr hsize]

/-- A directory is no link, so that a path is not led on from it. -/
theorem not_link_of_isDirectory (h : t.isDirectory file = true) (target : Text) :
    t.node? file ≠ some (.link target) := by
  intro hlink
  rw [isDirectory, hlink] at h
  exact nomatch h

/-- An empty name, as between two slashes, leads nowhere else than to the directory itself. -/
theorem stretch_empty {purpose : Purpose} {rest : List Text} (h : t.isDirectory here = true) :
    t.stretch purpose here ([] :: rest) = t.stretch purpose here rest := by
  rw [stretch, h]
  rfl

/-- **The way to a directory leads down to it**: in an orderly tree its names are followed from the
root to the directory, and on from there. -/
theorem stretch_wayTo (horderly : t.isOrderly = true) {depth : Nat} {way : List Text}
    (hdirectory : t.isDirectory directory = true) (hway : t.wayTo depth directory = some way)
    (rest : List Text) :
    t.isDirectory root = true ∧ (∀ name ∈ way, Path.isName name = true) ∧
      t.stretch .target root (way ++ rest) = t.stretch .target directory rest := by
  induction depth generalizing directory way rest with
  | zero => exact nomatch hway
  | succ depth ih =>
      rw [wayTo] at hway
      split at hway
      · next hroot =>
          obtain rfl := Option.some.inj hway
          rw [hroot] at hdirectory ⊢
          exact ⟨hdirectory, List.forall_mem_nil _, rfl⟩
      · split at hway
        · next name before hname hbefore =>
            obtain rfl := Option.some.inj hway
            have hmem := mem_of_nameOf?_eq_some hname
            obtain ⟨hroot, hnames, hstretch⟩ := ih (isDirectory_of_mem hmem) hbefore (name :: rest)
            refine ⟨hroot, ?_, ?_⟩
            · rw [List.forall_mem_append]
              exact ⟨hnames, List.forall_mem_singleton.mpr (entry?_of_mem horderly hmem).1⟩
            · rw [List.append_assoc, List.singleton_append, hstretch]
              exact stretch_cons horderly hmem (not_link_of_isDirectory hdirectory)
        · exact nomatch hway

/-- A path that is made of names can be followed if it is short enough. -/
theorem checkPath_ofNames {parts : List Text} (hnames : ∀ name ∈ parts, Path.isName name = true)
    (hsize : Utf8.size (Path.ofNames parts) ≤ pathLimit) :
    checkPath (Path.ofNames parts) = .ok () := by
  have hnul : '\x00' ∉ Path.ofNames parts := by
    intro hin
    rcases Path.mem_ofNames hin with hsep | ⟨name, hname, hin⟩
    · exact absurd hsep (by decide)
    · exact (Path.not_mem_of_isName (hnames name hname)).2 hin
  have hsome : Path.ofNames parts ≠ [] := by
    intro hnil
    have habsolute := Path.isAbsolute_ofNames parts
    rw [hnil] at habsolute
    exact nomatch habsolute
  rw [checkPath, if_neg (by simpa using hnul), if_neg hsome, if_neg (Nat.not_lt.mpr hsize)]

/-- A path that starts at the root leads to the same file from everywhere. -/
theorem find_of_isAbsolute {path : Text} (habsolute : Path.isAbsolute path = true)
    (here there : FileId) : t.find here path = t.find there path := by
  simp only [find, findFor, resolve, start, if_pos habsolute]

/-- The path by which a directory is known is absolute. -/
theorem isAbsolute_pathOf? {path : Text} (h : t.pathOf? directory = some path) :
    Path.isAbsolute path = true := by
  obtain ⟨way, -, rfl⟩ := Option.map_eq_some_iff.mp h
  exact Path.isAbsolute_ofNames way

/-- **The path of a directory leads to it**, from everywhere, unless it is too long. -/
theorem find_pathOf? {path : Text} (horderly : t.isOrderly = true)
    (hdirectory : t.isDirectory directory = true) (hpath : t.pathOf? directory = some path)
    (hsize : Utf8.size path ≤ pathLimit) (here : FileId) : t.find here path = .ok directory := by
  obtain ⟨way, hway, rfl⟩ := Option.map_eq_some_iff.mp hpath
  obtain ⟨hroot, hnames, hstretch⟩ := stretch_wayTo horderly hdirectory hway []
  have hseparators : ∀ name ∈ way, Path.separator ∉ name := fun name hname =>
    (Path.not_mem_of_isName (hnames name hname)).1
  have hwalk : t.stretch .target root (Path.names (Path.ofNames way)) =
      .whole (.found directory) := by
    rw [List.append_nil, stretch_nil (Option.isSome_of_any hdirectory)] at hstretch
    cases way with
    | nil => rwa [Path.ofNames, Path.names, if_pos rfl, Path.names, stretch_empty hroot,
        stretch_empty hroot]
    | cons name way =>
        have hmade : Path.ofNames (name :: way) = (name :: way).flatMap (Path.separator :: ·) := rfl
        rwa [hmade, Path.names_flatMap hseparators, stretch_empty hroot]
  rw [find, findFor, resolve, checkPath_ofNames hnames hsize, start,
    if_pos (Path.isAbsolute_ofNames way)]
  dsimp only
  rw [follow_of_whole hwalk]
  rfl

end FileTree

end Conch
