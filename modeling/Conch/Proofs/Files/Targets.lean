import Conch.Files.Redirection
import Conch.Proofs.Files.Growth

/-!
# What becomes of files when targets are opened

To open an input changes nothing.  To open an output changes one file, the one that the path leads
to: it is created in a directory that gets a name for it (`Grown`), or it is made empty (`Emptied`).
Both leave every other file as it is, and every path that led to one (`Opens`).  The input comes
first, so if it cannot be opened nobody tries to open the output (`openTargets_eq_error_iff`).
-/

namespace Conch

namespace FileTree

variable {t t' : FileTree} {here directory file : FileId} {name path : Text} {mode : Nat}

/-! ## Nodes -/

/-- When a node is set, the file that has it is the only one that changes, and only if it is
there. -/
theorem node?_setNode (t : FileTree) (file other : FileId) (node : Node) :
    (t.setNode file node).node? other =
      if other = file then (t.node? file).map fun _ => node else t.node? other := by
  unfold setNode node?
  rw [Array.getElem?_setIfInBounds]
  by_cases hsame : other = file
  · subst hsame
    rw [if_pos rfl, if_pos rfl]
    by_cases hbound : other.index < t.nodes.size
    · simp [hbound]
    · simp [hbound]
  · have hindex : ¬ file.index = other.index := by
      intro h
      exact hsame (by cases other; cases file; simp_all)
    rw [if_neg hindex, if_neg hsame]

/-- When a node is added, it gets a number that no file had, and the other files are the same. -/
theorem node?_add (t : FileTree) (node : Node) (other : FileId) :
    (t.add node).2.node? other = if other = (t.add node).1 then some node else t.node? other := by
  unfold add node?
  dsimp only
  rw [Array.getElem?_push]
  by_cases hsame : other.index = t.nodes.size
  · have hother : other = ⟨t.nodes.size⟩ := by cases other; simp_all
    rw [if_pos hsame, if_pos hother]
  · have hother : other ≠ ⟨t.nodes.size⟩ := fun h => hsame (by rw [h])
    rw [if_neg hsame, if_neg hother]

/-- A directory has one that it is in, and entries. -/
theorem exists_directory (h : t.isDirectory directory = true) :
    ∃ parent entries, t.node? directory = some (.directory parent entries) := by
  unfold isDirectory at h
  cases hnode : t.node? directory with
  | none =>
      rw [hnode] at h
      exact nomatch h
  | some node =>
      rw [hnode] at h
      cases node with
      | directory parent entries => exact ⟨parent, entries, rfl⟩
      | _ => exact nomatch h

/-- The number that an added file gets belonged to no file before. -/
theorem node?_add_fst (t : FileTree) (node : Node) : t.node? (t.add node).1 = none := by
  unfold add node?
  simp

/-- When a file is made empty, no other file changes. -/
theorem node?_truncate (t : FileTree) (file other : FileId) :
    (t.truncate file).node? other =
      if other = file then (t.node? file).map Node.emptied else t.node? other := by
  unfold truncate
  split
  · next hnode => rw [node?_setNode, hnode]; rfl
  · next hother =>
      split
      · next hsame =>
          rw [hsame]
          cases hnode : t.node? file with
          | none => rfl
          | some node =>
              cases node with
              | file contents mode => exact absurd hnode (hother contents mode)
              | _ => rfl
      · rfl

/-! ## Opening an output -/

/-- A file that is created at a vacant name makes the tree grow. -/
theorem grown_of_create (node : Node) (hdirectory : t.isDirectory directory = true)
    (hvacant : t.entry? directory name = none)
    (hleaf : node.isDirectory = false ∧ node.isLink = false) :
    Grown t (t.create directory name node).2 directory name (t.create directory name node).1
      node := by
  let new := (t.add node).1
  let added := (t.add node).2
  obtain ⟨parent, entries, hbefore⟩ := exists_directory hdirectory
  have hnone : t.node? new = none := t.node?_add_fst node
  have hne : directory ≠ new := by
    intro hsame
    rw [← hsame, hbefore] at hnone
    exact nomatch hnone
  have hlookup : entries.lookup name = none := by
    unfold entry? FileTree.entries at hvacant
    rwa [hbefore] at hvacant
  have hadded : added.node? directory = some (.directory parent entries) := by
    rw [node?_add, if_neg hne, hbefore]
  have hkept : entries.filter (fun entry => entry.1 != name) = entries := by
    rw [List.filter_eq_self]
    intro entry hentry
    have hother := List.lookup_eq_none_iff.mp hlookup entry hentry
    exact bne_iff_ne.mpr (bne_iff_ne.mp hother).symm
  have hafter : (t.create directory name node).2 =
      added.setNode directory (.directory parent (entries ++ [(name, new)])) := by
    change added.giveName directory name new = _
    rw [giveName, setEntries, FileTree.entries, FileTree.parent, hadded]
    dsimp only
    rw [hkept]
  have hnew : (t.create directory name node).1 = new := rfl
  rw [hnew, hafter]
  refine ⟨hnone, ?_, hleaf, ⟨parent, entries, hbefore, hlookup, ?_⟩, fun other hold hother => ?_⟩
  · rw [node?_setNode, if_neg hne.symm, node?_add, if_pos rfl]
  · rw [node?_setNode, if_pos rfl, hadded]
    rfl
  · rw [node?_setNode, if_neg hother, node?_add, if_neg hold]

/-- So it does when a file is created where a path leads to nothing. -/
theorem grown_of_vacant (mode : Nat)
    (hvacant : t.resolve .creation here path = .ok (.vacant directory name)) :
    Grown t (t.create directory name (.file [] mode)).2 directory name
      (t.create directory name (.file [] mode)).1 (.file [] mode) := by
  obtain ⟨hdirectory, hnone⟩ := vacant_of_follow (resolve_eq_ok_iff.mp hvacant).2
  exact grown_of_create _ hdirectory hnone ⟨rfl, rfl⟩

/-- A file that is there, and is no directory, has been made empty. -/
theorem emptied_truncate {node : Node} (hnode : t.node? file = some node)
    (hplain : node.isDirectory = false) : Emptied t (t.truncate file) file where
  old := ⟨node, hnode, hplain⟩
  empty := by rw [node?_truncate, if_pos rfl]
  others other hother := by rw [node?_truncate, if_neg hother]

/-- A file that has just been created is empty, so that it makes no difference to empty it. -/
theorem Grown.truncate (h : Grown t t' directory name file (.file [] mode)) :
    Grown t (t'.truncate file) directory name file (.file [] mode) := by
  have hsame : ∀ other, (t'.truncate file).node? other = t'.node? other := by
    intro other
    rw [node?_truncate]
    split
    · next hfile => rw [hfile, h.made]; rfl
    · rfl
  refine ⟨h.new, (hsame file).trans h.made, h.leaf, ?_, fun other hfile hdirectory => ?_⟩
  · rw [hsame]
    exact h.named
  · rw [hsame]
    exact h.others other hfile hdirectory

/-- What the opening of an output has done.  The path leads to the file now, which has been created,
if the path led nowhere before, or made empty; and other files are found wherever they were found
before, and nowhere else. -/
structure Opens (t : FileTree) (here : FileId) (mode : Nat) (path : Text) (file : FileId)
    (t' : FileTree) : Prop where
  leads : t'.find here path = .ok file
  changes : (t.find here path = .error (.system .noEntry) ∧
      ∃ directory name, Grown t t' directory name file (.file [] mode)) ∨
    (t.find here path = .ok file ∧ Emptied t t' file)
  ways : ∀ (purpose : Purpose) (there : FileId) (way : Text), ∀ other ≠ file,
    t'.findFor purpose there way = .ok other ↔ t.findFor purpose there way = .ok other

/-- Opening for output leads to a file that is created, or is there. -/
theorem openKeeping_cases (h : t.openKeeping here mode path = .ok (file, t')) :
    (∃ directory name, t.resolve .creation here path = .ok (.vacant directory name) ∧
      (file, t') = t.create directory name (.file [] mode)) ∨
    (t.resolve .creation here path = .ok (.found file) ∧ t.isDirectory file = false ∧ t' = t) := by
  unfold openKeeping at h
  split at h
  · exact nomatch h
  · next directory name hvacant =>
      unfold createFile at h
      split at h
      · exact .inl ⟨directory, name, hvacant, (Except.ok.inj h).symm⟩
      · exact nomatch h
  · next old hfound =>
      split at h
      · exact nomatch h
      · next hplain =>
          unfold checked at h
          split at h
          · exact nomatch h
          split at h
          · exact nomatch h
          · obtain ⟨rfl, rfl⟩ := Prod.mk.inj (Except.ok.inj h)
            exact .inr ⟨hfound, by simpa using hplain, rfl⟩

/-- **What the opening of an output does**: if it succeeds, the file has been created or made empty,
and nothing else has changed. -/
theorem opens_of_openOutput (h : t.openOutput here mode path = .ok (file, t')) :
    Opens t here mode path file t' := by
  obtain ⟨⟨opened, kept⟩, hkeeping, hpair⟩ : ∃ opened, t.openKeeping here mode path = .ok opened ∧
      (opened.1, opened.2.truncate opened.1) = (file, t') := by
    unfold openOutput at h
    cases hkeeping : t.openKeeping here mode path with
    | error e =>
        rw [hkeeping] at h
        exact nomatch h
    | ok opened =>
        rw [hkeeping] at h
        exact ⟨opened, rfl, Except.ok.inj h⟩
  obtain ⟨rfl, rfl⟩ := Prod.mk.inj hpair
  rcases openKeeping_cases hkeeping with ⟨directory, name, hvacant, hcreate⟩ | ⟨hfound, hplain, rfl⟩
  · obtain ⟨rfl, rfl⟩ := Prod.mk.inj hcreate
    have hresolve := resolve_creation hvacant
    have hgrown := (grown_of_vacant mode hvacant).truncate
    refine ⟨findFor_eq_ok_iff.mpr (hgrown.resolve_vacant hresolve),
      .inl ⟨find_of_vacant hresolve, directory, name, hgrown⟩, ?_⟩
    intro purpose there way other hother
    exact hgrown.findFor_iff hother purpose there way
  · have hresolve := resolve_creation hfound
    obtain ⟨node, hnode⟩ := Option.isSome_iff_exists.mp
      (isSome_of_follow (resolve_eq_ok_iff.mp hfound).2)
    have hleaf : node.isDirectory = false := by
      rwa [isDirectory, hnode] at hplain
    have hemptied := emptied_truncate hnode hleaf
    refine ⟨findFor_eq_ok_iff.mpr ((hemptied.resolve_eq _ _ _).trans hresolve),
      .inr ⟨findFor_eq_ok_iff.mpr hresolve, hemptied⟩, ?_⟩
    intro purpose there way other hother
    rw [findFor_eq_ok_iff, findFor_eq_ok_iff, hemptied.resolve_eq]

/-! ## Opening an input -/

/-- What is opened for input is what the path leads to, and may be read. -/
theorem of_openInput_eq_ok (h : t.openInput here path = .ok file) :
    t.find here path = .ok file ∧ t.permits file .reading = true := by
  unfold openInput at h
  split at h
  · exact nomatch h
  · next found hfound =>
      unfold checked at h
      split at h
      · exact nomatch h
      next hpermits =>
        split at h
        · exact nomatch h
        · obtain rfl := Except.ok.inj h
          exact ⟨hfound, by simpa using hpermits⟩

end FileTree

namespace Redirects

variable {r : Redirects} {files : FileTree} {here : FileId} {mask : Nat}

/-- What has been done when the targets have been opened.  The input is the file that its path leads
to; it may be the file of the output.  Without an output nothing has changed, and with one it has
been opened, and nothing else has changed. -/
structure Done (r : Redirects) (files : FileTree) (here : FileId) (mask : Nat) (opened : Opened) :
    Prop where
  input : ∀ path, r.input = some path → ∃ file, opened.input = some file ∧
    files.find here path = .ok file ∧ files.permits file .reading = true
  kept : r.output = none → opened.output = none ∧ opened.files = files
  output : ∀ path, r.output = some path → ∃ file, opened.output = some file ∧
    FileTree.Opens files here (FileTree.masked FileTree.outputMode mask) path file opened.files

/-- Why targets cannot be opened: the input cannot, or the output cannot though the input can. -/
inductive Unopenable (r : Redirects) (files : FileTree) (here : FileId) (mask : Nat) :
    ShellError → Prop where
  | input {path : Text} {reason : IoError} (hinput : r.input = some path)
      (hopen : files.openInput here path = .error reason) :
      Unopenable r files here mask (.cannotOpen path .input reason)
  | output {path : Text} {reason : IoError}
      (hinput : ∀ source, r.input = some source → ∃ file, files.openInput here source = .ok file)
      (houtput : r.output = some path)
      (hopen : files.openOutput here (FileTree.masked FileTree.outputMode mask) path =
        .error reason) :
      Unopenable r files here mask (.cannotOpen path .output reason)

/-- The opening of the input is that of what its path leads to. -/
theorem openInput_of_some {path : Text} (h : r.input = some path) :
    r.openInput files here = match files.openInput here path with
      | .ok file => .ok (some file)
      | .error reason => .error (.cannotOpen path .input reason) := by
  obtain ⟨input, output⟩ := r
  obtain rfl : input = some path := h
  rfl

/-- Without a redirection of the input nothing is opened for it, and this cannot fail. -/
theorem openInput_of_none (h : r.input = none) : r.openInput files here = .ok none := by
  rw [openInput, h]

/-- The opening of the output is that of what its path leads to. -/
theorem openOutput_of_some {path : Text} (h : r.output = some path) :
    r.openOutput files here mask =
      match files.openOutput here (FileTree.masked FileTree.outputMode mask) path with
      | .ok (file, files) => .ok (some file, files)
      | .error reason => .error (.cannotOpen path .output reason) := by
  obtain ⟨input, output⟩ := r
  obtain rfl : output = some path := h
  rfl

/-- Without a redirection of the output nothing is opened for it, and the files are as they were. -/
theorem openOutput_of_none (h : r.output = none) :
    r.openOutput files here mask = .ok (none, files) := by
  rw [openOutput, h]

/-- The targets are opened one after the other, the input first, and both have to be. -/
theorem openTargets_eq_ok_iff {opened : Opened} : r.openTargets files here mask = .ok opened ↔
    r.openInput files here = .ok opened.input ∧
      r.openOutput files here mask = .ok (opened.output, opened.files) := by
  unfold openTargets
  cases r.openInput files here with
  | error e => simp
  | ok input =>
      cases r.openOutput files here mask with
      | error e => simp
      | ok output =>
          obtain ⟨file, after⟩ := output
          cases opened
          simp

/-- **What the opening of targets does**: if it succeeds, both streams have their files, and no
other file has changed. -/
theorem done_of_openTargets {opened : Opened} (h : r.openTargets files here mask = .ok opened) :
    Done r files here mask opened := by
  obtain ⟨hinput, houtput⟩ := openTargets_eq_ok_iff.mp h
  refine ⟨fun path hpath => ?_, fun hnone => ?_, fun path hpath => ?_⟩
  · rw [openInput_of_some hpath] at hinput
    split at hinput
    · next file hopen =>
        exact ⟨file, (Except.ok.inj hinput).symm, FileTree.of_openInput_eq_ok hopen⟩
    · exact nomatch hinput
  · rw [openOutput_of_none hnone] at houtput
    obtain ⟨hnothing, hfiles⟩ := Prod.mk.inj (Except.ok.inj houtput)
    exact ⟨hnothing.symm, hfiles.symm⟩
  · rw [openOutput_of_some hpath] at houtput
    split at houtput
    · next file after hopen =>
        obtain ⟨hfile, hfiles⟩ := Prod.mk.inj (Except.ok.inj houtput)
        rw [← hfile, ← hfiles]
        exact ⟨file, rfl, FileTree.opens_of_openOutput hopen⟩
    · exact nomatch houtput

/-- If the input can be opened, it is the output that cannot. -/
theorem unopenable_of_openOutput {e : ShellError}
    (hinput : ∀ source, r.input = some source → ∃ file, files.openInput here source = .ok file)
    (h : r.openOutput files here mask = .error e) : Unopenable r files here mask e := by
  cases houtput : r.output with
  | none =>
      rw [openOutput_of_none houtput] at h
      exact nomatch h
  | some path =>
      rw [openOutput_of_some houtput] at h
      split at h
      · exact nomatch h
      · next reason hopen =>
          obtain rfl := Except.error.inj h
          exact .output hinput houtput hopen

/-- **When targets cannot be opened**, and what is said about it. -/
theorem openTargets_eq_error_iff {e : ShellError} :
    r.openTargets files here mask = .error e ↔ Unopenable r files here mask e := by
  unfold openTargets
  constructor
  · intro h
    cases hsource : r.input with
    | some source =>
        cases hopen : files.openInput here source with
        | error reason =>
            rw [openInput_of_some hsource, hopen] at h
            obtain rfl := Except.error.inj h
            exact .input hsource hopen
        | ok file =>
            rw [openInput_of_some hsource, hopen] at h
            dsimp only at h
            refine unopenable_of_openOutput (fun path hpath => ?_) ?_
            · obtain rfl := Option.some.inj (hsource.symm.trans hpath)
              exact ⟨file, hopen⟩
            · split at h
              · next why hwhy => rw [hwhy, Except.error.inj h]
              · exact nomatch h
    | none =>
        rw [openInput_of_none hsource] at h
        dsimp only at h
        refine unopenable_of_openOutput (fun path hpath => ?_) ?_
        · exact nomatch hsource.symm.trans hpath
        · split at h
          · next why hwhy => rw [hwhy, Except.error.inj h]
          · exact nomatch h
  · intro h
    cases h with
    | input hinput hopen => rw [openInput_of_some hinput, hopen]
    | output hinput houtput hopen =>
        have hfirst : ∃ input, r.openInput files here = .ok input := by
          cases hsource : r.input with
          | none => exact ⟨none, openInput_of_none hsource⟩
          | some source =>
              obtain ⟨file, hfile⟩ := hinput source hsource
              exact ⟨some file, by rw [openInput_of_some hsource, hfile]⟩
        obtain ⟨input, hfirst⟩ := hfirst
        rw [hfirst, openOutput_of_some houtput, hopen]

end Redirects

end Conch
