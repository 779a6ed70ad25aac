import Conch.Machine.Host
import Conch.Proofs.Files.Targets
import Mathlib.Data.List.Nodup
import Mathlib.Data.List.Perm.Subperm

/-!
# Opening files on a machine

A process opens the files of the machine, and a few things that are no files: pipes, devices, and
what the system writes about processes.  Whatever it is that cannot be opened, the machine stays as
it was (`openFile_of_error`).  For a path that leads to a file or a directory, or to nothing
(`Ordinary`), to open is what it is for the files alone, and what has been opened is noted for the
process (`openFile_read`, `openFile_write`).
-/

namespace Conch

/-- Is it a file or a directory, and nothing that a machine has in the place of files? -/
def Node.isPlain : Node → Bool
  | file .. | directory .. => true
  | _ => false

/-- Is the path one at which the system may write about a process? -/
def Path.isOfProcess (path : Text) : Bool :=
  match Path.names path with
  | [[], folder, _, _] => folder = "proc".toList
  | _ => false

/-- A path that leads to a file or a directory, if it leads anywhere, and that is not about a
process. -/
structure FileTree.Ordinary (t : FileTree) (here : FileId) (path : Text) : Prop where
  plain : ∀ file node, t.find here path = .ok file → t.node? file = some node →
    node.isPlain = true
  unserved : Path.isOfProcess path = false

/-! ## Descriptors -/

namespace Process

variable (p : Process)

/-- When a descriptor is closed it refers to nothing, and the others refer to what they referred
to. -/
theorem opening?_close (number other : Nat) :
    (p.close number).opening? other = if other = number then none else p.opening? other := by
  unfold close opening?
  dsimp only
  rw [List.find?_filter]
  by_cases hsame : other = number
  · have hgone : ∀ descriptor ∈ p.descriptors, ¬ decide ((descriptor.number != number) = true ∧
        (descriptor.number == other) = true) = true := by
      intro descriptor _
      simp [hsame]
    rw [if_pos hsame, List.find?_eq_none.mpr hgone, Option.map_none]
  · have hkept : (fun descriptor : Descriptor => decide ((descriptor.number != number) = true ∧
        (descriptor.number == other) = true)) = fun descriptor => descriptor.number == other := by
      funext descriptor
      by_cases h : descriptor.number = other
      · simp [h, hsame]
      · simp [h]
    rw [if_neg hsame, hkept]

/-- When a descriptor is attached it refers to its opening, and the others refer to what they
referred to. -/
theorem opening?_attach (descriptor : Descriptor) (number : Nat) :
    (p.attach descriptor).opening? number =
      if number = descriptor.number then some descriptor.opening else p.opening? number := by
  have happend : (p.attach descriptor).opening? number =
      ((p.close descriptor.number).opening? number).or
        (if descriptor.number == number then some descriptor.opening else none) := by
    unfold attach opening?
    dsimp only
    rw [List.find?_append, Option.map_or]
    congr 1
    cases hsame : descriptor.number == number <;> simp [hsame]
  rw [happend, opening?_close]
  by_cases hsame : number = descriptor.number
  · simp [hsame]
  · have hother : ¬ descriptor.number = number := fun h => hsame h.symm
    simp [hsame, hother]

/-- A number that is free belongs to no descriptor, so that nothing is replaced by using it. -/
theorem opening?_freeNumber (least : Nat) : p.opening? (p.freeNumber least) = none := by
  unfold freeNumber
  dsimp only
  cases hfound : ((List.range (p.descriptors.length + 1)).map (least + ·)).find?
      fun number => (p.opening? number).isNone with
  | some number =>
      have hfree := List.find?_some hfound
      exact Option.isNone_iff_eq_none.mp hfree
  | none =>
      -- Not all of the numbers can be taken, because there are more of them than descriptors.
      have htaken : (List.range (p.descriptors.length + 1)).map (least + ·) ⊆
          p.descriptors.map Descriptor.number := by
        intro number hnumber
        have hsome := List.find?_eq_none.mp hfound number hnumber
        rw [Option.isNone_iff_eq_none, opening?, Option.map_eq_none_iff,
          List.find?_eq_none] at hsome
        push Not at hsome
        obtain ⟨descriptor, hin, hnumber⟩ := hsome
        exact List.mem_map.mpr ⟨descriptor, hin, eq_of_beq hnumber⟩
      have hdistinct : ((List.range (p.descriptors.length + 1)).map (least + ·)).Nodup :=
        List.Nodup.map (fun _ _ h => Nat.add_left_cancel h) List.nodup_range
      have hlength := (hdistinct.subperm htaken).length_le
      rw [List.length_map, List.length_map, List.length_range] at hlength
      omega

end Process

namespace Machine

variable {m : Machine} {p : Process} {path : Text} {access : Access} {mode : Nat} {file : FileId}
  {files : FileTree} {node : Node} {reason : IoError}

/-- The system writes about processes only to files whose path is about one. -/
theorem processFile?_eq_none (h : Path.isOfProcess path = false) : m.processFile? path = none := by
  unfold processFile?
  unfold Path.isOfProcess at h
  split
  · next folder pid name hnames =>
      rw [hnames] at h
      have hfolder : ¬ folder = "proc".toList := of_decide_eq_false h
      rw [decide_eq_false hfolder, Bool.false_and, if_neg Bool.false_ne_true]
  · rfl

/-- A plain file is opened as itself, and not as something of the process that looks. -/
theorem endpointOf?_of_plain (hnode : m.files.node? file = some node)
    (hplain : node.isPlain = true) : m.endpointOf? p file = some (.file file) := by
  rw [endpointOf?, hnode]
  cases node <;> first | rfl | exact nomatch hplain

/-! ## What cannot be opened -/

/-- What is found for a process that opens a file was there, or it is a file that is new. -/
theorem files_of_locate (h : m.locate p path access mode = .ok (file, files)) :
    files = m.files ∨ ∃ contents mode, files.node? file = some (.file contents mode) := by
  have hcreated : m.files.openKeeping p.directory (FileTree.masked mode p.mask) path =
      .ok (file, files) →
      files = m.files ∨ ∃ contents mode, files.node? file = some (.file contents mode) := by
    intro hkeeping
    rcases FileTree.openKeeping_cases hkeeping with ⟨directory, name, hvacant, hcreate⟩ | hfound
    · obtain ⟨rfl, rfl⟩ := Prod.mk.inj hcreate
      exact .inr ⟨[], _, (FileTree.grown_of_vacant _ hvacant).made⟩
    · exact .inl hfound.2.2
  unfold locate at h
  cases access with
  | read =>
      dsimp only at h
      split at h
      · next text htext =>
          obtain ⟨rfl, rfl⟩ := Prod.mk.inj (Except.ok.inj h)
          have hnew := m.files.node?_add (.file (Utf8.encode text) 0o444) ⟨m.files.nodes.size⟩
          exact .inr ⟨_, _, hnew.trans (if_pos rfl)⟩
      · cases hopen : m.files.openInput p.directory path with
        | error reason =>
            rw [hopen] at h
            exact nomatch h
        | ok found =>
            rw [hopen] at h
            exact .inl (Prod.mk.inj (Except.ok.inj h)).2.symm
  | create =>
      dsimp only at h
      split at h
      · exact nomatch h
      · exact hcreated h
  | update =>
      dsimp only at h
      cases hkeeping : m.files.openKeeping p.directory (FileTree.masked mode p.mask) path with
      | error reason =>
          rw [hkeeping] at h
          exact nomatch h
      | ok opened =>
          rw [hkeeping] at h
          dsimp only [bind, Except.bind] at h
          split at h
          · exact hcreated (hkeeping.trans h)
          · exact nomatch h
  | write => exact hcreated h
  | append => exact hcreated h

/-- **What cannot be opened leaves the machine as it was.** -/
theorem openFile_of_error (h : (m.openFile p path access mode).1 = .error reason) :
    (m.openFile p path access mode).2 = m := by
  unfold openFile at h ⊢
  cases hlocate : m.locate p path access mode with
  | error e => rfl
  | ok opened =>
      obtain ⟨file, files⟩ := opened
      rw [hlocate] at h
      dsimp only at h ⊢
      cases hendpoint : ({ m with files } : Machine).endpointOf? p file with
      | some endpoint =>
          rw [hendpoint] at h
          exact nomatch h
      | none =>
          rcases files_of_locate hlocate with rfl | ⟨contents, mode, hnew⟩
          · rfl
          · have hfile := endpointOf?_of_plain (m := { m with files }) (p := p) hnew rfl
            exact nomatch hendpoint.symm.trans hfile

/-! ## Files and directories -/

/-- Something has been opened for a process, which gets a descriptor for it. -/
def opensAs (m : Machine) (p : Process) (opening : Opening) : Except IoError Nat × Machine :=
  (.ok (p.freeNumber 0), { m with openings := m.openings.push opening }.setProcess
    (p.attach { number := p.freeNumber 0, opening := m.openings.size }))

/-- **Once a plain file has been located it is opened**, and the process gets the least descriptor
that is free. -/
theorem openFile_of_locate (h : m.locate p path access mode = .ok (file, files))
    (hnode : files.node? file = some node) (hplain : node.isPlain = true) :
    m.openFile p path access mode =
      opensAs { m with files := if access = .write then files.truncate file else files } p
        { endpoint := .file file, reads := access.reads, writes := access.writes,
          appends := access = .append } := by
  have hendpoint := endpointOf?_of_plain (m := { m with files }) (p := p) hnode hplain
  have hfile : ¬ files.node? file = some .pipe := by
    rintro hpipe
    obtain rfl := Option.some.inj (hnode.symm.trans hpipe)
    exact nomatch hplain
  unfold openFile
  rw [h]
  dsimp only
  rw [hendpoint]
  dsimp only
  rw [if_neg hfile]
  dsimp only
  split <;> rfl

/-- The file of an ordinary path is opened to be read. -/
theorem openFile_read (h : m.files.Ordinary p.directory path) :
    m.openFile p path .read mode =
      match m.files.openInput p.directory path with
      | .error reason => (.error reason, m)
      | .ok file => m.opensAs p { endpoint := .file file, reads := true } := by
  have hlocate : m.locate p path .read mode =
      (m.files.openInput p.directory path).map fun file => (file, m.files) := by
    unfold locate
    rw [processFile?_eq_none h.unserved]
  cases hopen : m.files.openInput p.directory path with
  | error reason =>
      rw [hopen] at hlocate
      rw [openFile, hlocate]
      rfl
  | ok file =>
      rw [hopen] at hlocate
      have hfind := (FileTree.of_openInput_eq_ok hopen).1
      obtain ⟨node, hnode⟩ := FileTree.exists_node hfind
      exact openFile_of_locate hlocate hnode (h.plain file node hfind hnode)

/-- The file of an ordinary path is opened to be written anew. -/
theorem openFile_write (h : m.files.Ordinary p.directory path) :
    m.openFile p path .write mode =
      match m.files.openOutput p.directory (FileTree.masked mode p.mask) path with
      | .error reason => (.error reason, m)
      | .ok (file, files) =>
        opensAs { m with files } p { endpoint := .file file, writes := true } := by
  have hlocate : m.locate p path .write mode =
      m.files.openKeeping p.directory (FileTree.masked mode p.mask) path := rfl
  unfold FileTree.openOutput
  cases hkeeping : m.files.openKeeping p.directory (FileTree.masked mode p.mask) path with
  | error reason =>
      rw [openFile, hlocate, hkeeping]
      rfl
  | ok opened =>
      obtain ⟨file, files⟩ := opened
      rw [hkeeping] at hlocate
      rcases FileTree.openKeeping_cases hkeeping with ⟨directory, name, hvacant, hcreate⟩ | hfound
      · obtain ⟨rfl, rfl⟩ := Prod.mk.inj hcreate
        exact openFile_of_locate hlocate (FileTree.grown_of_vacant _ hvacant).made rfl
      · obtain ⟨hfound, -, rfl⟩ := hfound
        have hfind := FileTree.findFor_eq_ok_iff.mpr (FileTree.resolve_creation hfound)
        obtain ⟨node, hnode⟩ := FileTree.exists_node hfind
        exact openFile_of_locate hlocate hnode (h.plain file node hfind hnode)

end Machine

end Conch
