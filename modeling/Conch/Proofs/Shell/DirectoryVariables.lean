import Conch.Proofs.Files.Naming
import Conch.Proofs.Shell.Directory

/-!
# What children are told of the directory

Two variables tell the children of a shell where it is and where it was.  The shell takes the one
from the path that it was to go by, and the other from the path of the directory that it was in.
The latter is absolute by its making.  The former is absolute if it was put together from that or
came as an argument, but the home directory may have a relative path, and that is not put together
with anything: it leads home once, and from there to somewhere else
(`pwd_relative_after_relative_home`).

A change of the directory that does not go through changes nothing, so after any number of attempts
all is as the last one that went through has left it (`last_change`).
-/

namespace Conch

namespace Machine

/-- The value of a variable that is handed on to children. -/
def exported? (m : Machine) (name : String) : Option Text :=
  m.environment.lookup name.toList

/-- Are children told an absolute path that leads to the working directory from everywhere? -/
def Located (m : Machine) : Prop :=
  ∃ path, m.exported? "PWD" = some path ∧ Path.isAbsolute path = true ∧
    ∀ here, m.files.find here path = .ok m.directory

/-- Are children told the absolute path of what was the working directory before?  It leads there
from everywhere, unless it is too long. -/
def Remembers (before after : Machine) : Prop :=
  ∃ path, after.exported? "OLDPWD" = some path ∧ Path.isAbsolute path = true ∧
    before.files.pathOf? before.directory = some path ∧
    (before.files.isOrderly = true → before.files.isDirectory before.directory = true →
      Utf8.size path ≤ FileTree.pathLimit →
      ∀ here, after.files.find here path = .ok before.directory)

end Machine

namespace Shell

/-! ## One change -/

section Change

variable {σ : Type} (H : Host σ) {arguments : List Word} {sh moved : Shell σ}

/-- What was done by a change that went through: the target was found from the argument, the shell
has gone there, and the children are told of both directories. -/
theorem of_runChangeDirectory_eq_ok (h : runChangeDirectory H arguments sh = .ok () moved) :
    ∃ given here target world, asked? arguments = some given ∧
      H.workingDirectory sh.world = .ok here ∧
      directoryTarget given here (H.home sh.world) = some target ∧
      H.changeDirectory target sh.world = .ok world ∧
      moved = { sh with world := H.exportDirectories here target world } := by
  cases hasked : asked? arguments with
  | none =>
      obtain ⟨e, hreason⟩ := refusal_of_asked?_eq_none H sh.world hasked
      rw [((turnsDown_runChangeDirectory_iff H).mpr ⟨hreason, rfl⟩).1] at h
      exact nomatch h
  | some given =>
      rw [runChangeDirectory_of_asked H hasked] at h
      cases hhere : H.workingDirectory sh.world with
      | error reason =>
          rw [hhere] at h
          exact nomatch h
      | ok here =>
          rw [hhere] at h
          dsimp only at h
          cases htarget : directoryTarget given here (H.home sh.world) with
          | none =>
              rw [htarget] at h
              exact nomatch h
          | some target =>
              rw [htarget] at h
              dsimp only at h
              cases hmove : H.changeDirectory target sh.world with
              | error reason =>
                  rw [hmove] at h
                  exact nomatch h
              | ok world =>
                  rw [hmove] at h
                  obtain ⟨-, rfl⟩ := EStateM.Result.ok.inj h
                  exact ⟨given, here, target, world, rfl, rfl, htarget, hmove, rfl⟩

end Change

variable {arguments : List Word} {sh moved after : Shell Machine} {line : Text}

/-- The home directory is asked for, and it has a relative path. -/
def Drifts (arguments : List Word) (m : Machine) : Prop :=
  asked? arguments = some none ∧
    ∃ home, Machine.host.home m = some home ∧ Path.isAbsolute home = false

/-- What a change of the directory does to the machine: the children are told of it, the files and
the home directory stay as they are, and there is one way for the variables to go wrong. -/
structure Moves (arguments : List Word) (before after : Machine) : Prop where
  files : after.files = before.files
  home : after.home = before.home
  remembers : before.Remembers after
  located : after.Located ↔ ¬ Drifts arguments before

/-- When the children are told of a change, where the machine was is what they hear of the directory
before. -/
theorem remembers_exportDirectories {m : Machine} {here : Text} (target : Text)
    (directory : FileId) (hhere : m.files.pathOf? m.directory = some here) :
    m.Remembers (Machine.host.exportDirectories here target { m with directory }) := by
  refine ⟨here, rfl, FileTree.isAbsolute_pathOf? hhere, hhere, ?_⟩
  exact fun horderly hdirectory => FileTree.find_pathOf? horderly hdirectory hhere

/-- Where it is now is known if the path that it went by is absolute. -/
theorem located_exportDirectories {m : Machine} {here target : Text} {directory : FileId}
    (hfind : m.files.findDirectory m.directory target = .ok directory) :
    (Machine.host.exportDirectories here target { m with directory }).Located ↔
      Path.isAbsolute target = true := by
  constructor
  · rintro ⟨path, hpath, habsolute, -⟩
    obtain rfl := Option.some.inj hpath
    exact habsolute
  · intro habsolute
    refine ⟨target, rfl, habsolute, fun there => ?_⟩
    have hfile : m.files.find m.directory target = .ok directory := by
      unfold FileTree.findDirectory at hfind
      split at hfind
      · exact nomatch hfind
      · next file hfile =>
          split at hfind
          · rwa [← Except.ok.inj hfind]
          · exact nomatch hfind
    exact (FileTree.find_of_isAbsolute habsolute there m.directory).trans hfile

/-- The path that a change goes by is relative only if it leads home. -/
theorem isAbsolute_directoryTarget {given : Option Text} {here target : Text} {home : Option Text}
    (hhere : Path.isAbsolute here = true) (h : directoryTarget given here home = some target) :
    Path.isAbsolute target = true ↔
      ¬ (given = none ∧ ∃ path, home = some path ∧ Path.isAbsolute path = false) := by
  cases given with
  | none =>
      obtain rfl : home = some target := h
      simp
  | some path =>
      obtain rfl : Path.join here path = target := Option.some.inj h
      simp [Path.isAbsolute_join hhere]

/-- **One change that goes through** moves the machine, and leaves the files and the home directory
alone. -/
theorem moves_of_ok (h : runChangeDirectory Machine.host arguments sh = .ok () moved) :
    Moves arguments sh.world moved.world := by
  obtain ⟨given, here, target, world, hasked, hhere, htarget, hmove, rfl⟩ :=
    of_runChangeDirectory_eq_ok Machine.host h
  have hpath : sh.world.files.pathOf? sh.world.directory = some here := by
    simp only [Machine.host] at hhere
    split at hhere
    · next path hpath => rw [hpath, Except.ok.inj hhere]
    · exact nomatch hhere
  obtain ⟨directory, hfind, rfl⟩ : ∃ directory,
      sh.world.files.findDirectory sh.world.directory target = .ok directory ∧
        world = { sh.world with directory } := by
    simp only [Machine.host] at hmove
    cases hfind : sh.world.files.findDirectory sh.world.directory target with
    | error reason =>
        rw [hfind] at hmove
        exact nomatch hmove
    | ok directory =>
        rw [hfind] at hmove
        exact ⟨directory, rfl, (Except.ok.inj hmove).symm⟩
  have habsolute := FileTree.isAbsolute_pathOf? hpath
  refine ⟨rfl, rfl, remembers_exportDirectories target directory hpath, ?_⟩
  rw [located_exportDirectories hfind, isAbsolute_directoryTarget habsolute htarget, Drifts, hasked,
    Option.some.injEq]

/-- A change that does not go through changes nothing at all, not even what the children are
told. -/
theorem eq_of_error {stop : Stop}
    (h : runChangeDirectory Machine.host arguments sh = .error stop after) : after = sh := by
  rcases runChangeDirectory_cases Machine.host arguments sh with ⟨_, hrun, -⟩ | ⟨_, hrun⟩
  · rw [hrun] at h
    exact nomatch h
  · rw [hrun] at h
    exact (EStateM.Result.error.inj h).2.symm

/-! ## Lines -/

/-- The arguments of a line that changes the directory; nothing if the line does something else. -/
def changes? (line : Text) (sh : Shell Machine) : Option (List Word) :=
  match reading line sh with
  | .ok (some command) =>
    if Builtin.ofName? command.program = some .changeDirectory then some command.arguments else none
  | _ => none

/-- To print an empty text does nothing to the machine. -/
theorem print_nothing (sh : Shell Machine) : print Machine.host "" sh = .ok () sh := by
  have hnone : "".toUTF8.toList = [] := by simp
  have hworld : Machine.host.print "" sh.world = sh.world := by
    simp only [Machine.host, hnone, List.append_nil]
  change EStateM.Result.ok () { sh with world := Machine.host.print "" sh.world } = _
  rw [hworld]

/-- A line that changes the directory does nothing else. -/
theorem execute_of_changes?_eq_some (h : changes? line sh = some arguments) :
    execute Machine.host line sh = runChangeDirectory Machine.host arguments sh := by
  unfold changes? at h
  split at h
  · next command hparse =>
      split at h
      · next hname =>
          obtain rfl := Option.some.inj h
          rw [execute_eq_run Machine.host hparse, run_changeDirectory Machine.host hname]
          rcases hrun : runChangeDirectory Machine.host command.arguments sh with
            ⟨⟨⟩, moved⟩ | ⟨stop, left⟩
          · rw [bind_of_ok hrun]
            exact print_nothing moved
          · exact bind_of_error hrun
      · exact nomatch h
  · exact nomatch h

/-! ## Any number of changes -/

/-- The shell after several lines, whether they went through or not. -/
def afterLines (sh : Shell Machine) (lines : List Text) : Shell Machine :=
  lines.foldl (fun sh line => left (execute Machine.host line sh)) sh

/-- After one line more, the shell is where this line has left it. -/
theorem afterLines_concat (lines : List Text) :
    afterLines sh (lines ++ [line]) = left (execute Machine.host line (afterLines sh lines)) := by
  rw [afterLines, List.foldl_append]
  rfl

/-- Lines that change the directory change nothing but the world, and leave the home directory what
it is. -/
theorem afterLines_eq {lines : List Text} (h : ∀ line ∈ lines, (changes? line sh).isSome) :
    ∃ world, afterLines sh lines = { sh with world } ∧ world.home = sh.world.home := by
  induction lines using List.reverseRecOn with
  | nil => exact ⟨sh.world, rfl, rfl⟩
  | append_singleton lines line ih =>
      rw [List.forall_mem_append, List.forall_mem_singleton] at h
      obtain ⟨world, hbefore, hhome⟩ := ih h.1
      obtain ⟨arguments, hchanges⟩ := Option.isSome_iff_exists.mp h.2
      have hline : changes? line { sh with world } = some arguments := hchanges
      rw [afterLines_concat, hbefore, execute_of_changes?_eq_some hline]
      rcases hrun : runChangeDirectory Machine.host arguments { sh with world } with
        ⟨⟨⟩, moved⟩ | ⟨stop, after⟩
      · have hmoves := moves_of_ok hrun
        obtain ⟨_, _, _, _, -, -, -, -, rfl⟩ := of_runChangeDirectory_eq_ok Machine.host hrun
        exact ⟨_, rfl, hmoves.home.trans hhome⟩
      · obtain rfl := eq_of_error hrun
        exact ⟨world, rfl, hhome⟩

/-- One of several lines is the last one that has gone through, and all is as it has left it: it
changes the directory, and none that comes later gets through.  Children are told where the shell
was before and, with one exception, where it is. -/
structure LastChange (sh : Shell Machine) (lines before : List Text) (line : Text)
    (arguments : List Word) (later : List Text) : Prop where
  split : lines = before ++ line :: later
  changes : changes? line sh = some arguments
  done : execute Machine.host line (afterLines sh before) = .ok () (afterLines sh lines)
  failed : ∀ other ∈ later, ∃ stop,
    execute Machine.host other (afterLines sh lines) = .error stop (afterLines sh lines)
  remembers : (afterLines sh before).world.Remembers (afterLines sh lines).world
  located : (afterLines sh lines).world.Located ↔ ¬ Drifts arguments sh.world

/-- **Any number of changes**: none of them has gone through and nothing has changed, or all is as
the last one that has gone through has left it. -/
theorem last_change {lines : List Text} (h : ∀ line ∈ lines, (changes? line sh).isSome) :
    ((∀ line ∈ lines, ∃ stop, execute Machine.host line sh = .error stop sh) ∧
      afterLines sh lines = sh) ∨
    ∃ before line arguments later, LastChange sh lines before line arguments later := by
  induction lines using List.reverseRecOn with
  | nil => exact .inl ⟨List.forall_mem_nil _, rfl⟩
  | append_singleton lines line ih =>
      rw [List.forall_mem_append, List.forall_mem_singleton] at h
      obtain ⟨arguments, hchanges⟩ := Option.isSome_iff_exists.mp h.2
      obtain ⟨world, hworld, hhome⟩ := afterLines_eq h.1
      have hline : changes? line (afterLines sh lines) = some arguments := by
        rw [hworld]
        exact hchanges
      have hexecute := execute_of_changes?_eq_some hline
      rcases hrun : runChangeDirectory Machine.host arguments (afterLines sh lines) with
        ⟨⟨⟩, moved⟩ | ⟨stop, after⟩
      · -- this one has gone through
        rw [hrun] at hexecute
        have hmoved : afterLines sh (lines ++ [line]) = moved := by
          rw [afterLines_concat, hexecute]
          rfl
        have hmoves := moves_of_ok hrun
        rw [← hmoved] at hexecute hmoves
        refine .inr ⟨lines, line, arguments, [], rfl, hchanges, hexecute, List.forall_mem_nil _,
          hmoves.remembers, hmoves.located.trans (not_congr ?_)⟩
        rw [hworld]
        simp only [Drifts, Machine.host, hhome]
      · -- this one has not, so all is as it was before it
        obtain rfl := eq_of_error hrun
        rw [hrun] at hexecute
        have hsame : afterLines sh (lines ++ [line]) = afterLines sh lines := by
          rw [afterLines_concat, hexecute]
          rfl
        rcases ih h.1 with ⟨hfailed, hstart⟩ | ⟨before, last, given, later, hlast⟩
        · rw [hstart] at hexecute hsame
          refine .inl ⟨List.forall_mem_append.mpr ⟨hfailed, ?_⟩, hsame⟩
          exact List.forall_mem_singleton.mpr ⟨stop, hexecute⟩
        · refine .inr ⟨before, last, given, later ++ [line], ?_, hlast.changes, ?_, ?_, ?_, ?_⟩
          · rw [hlast.split, List.append_assoc, List.cons_append]
          · rw [hsame, hlast.done]
          · rw [hsame]
            exact List.forall_mem_append.mpr
              ⟨hlast.failed, List.forall_mem_singleton.mpr ⟨stop, hexecute⟩⟩
          · rw [hsame]
            exact hlast.remembers
          · rw [hsame]
            exact hlast.located

/-! ## The result -/

/-- **Children are told where the shell is, unless it has gone home by a relative path.**  After a
line that has changed the directory one variable is an absolute path that leads to it from
everywhere, if and only if it is not a relative home directory that was asked for; in any case the
other variable is the absolute path of the directory before, and no file has changed.  A line that
fails to change the directory changes nothing.  So after any number of such lines all is as the last
one that went through has left it, and if none has, all is as it was. -/
theorem directory_variables_true_iff (sh : Shell Machine) :
    (∀ (line : Text) (arguments : List Word), changes? line sh = some arguments →
      (∀ moved, execute Machine.host line sh = .ok () moved →
        Moves arguments sh.world moved.world) ∧
      ∀ stop after, execute Machine.host line sh = .error stop after → after = sh) ∧
    ∀ lines : List Text, (∀ line ∈ lines, (changes? line sh).isSome) →
      ((∀ line ∈ lines, ∃ stop, execute Machine.host line sh = .error stop sh) ∧
        afterLines sh lines = sh) ∨
      ∃ before line arguments later, LastChange sh lines before line arguments later := by
  refine ⟨fun line arguments hchanges => ?_, fun lines h => last_change h⟩
  rw [execute_of_changes?_eq_some hchanges]
  exact ⟨fun moved hmoved => moves_of_ok hmoved, fun stop after hstop => eq_of_error hstop⟩

/-- A shell in the root, with a path for the home directory. -/
def atRoot (home : Text) : Shell Machine :=
  fresh {} 1 {} { inside with directory := FileTree.root, home := some home }

/-- A shell goes down, and fails to go further; it is still where it has gone, and so it says. -/
theorem directory_variables_true_below_root :
    let lines : List Text := [['c', 'd', ' ', 'd'], ['c', 'd', ' ', 'e']]
    let moved := afterLines (atRoot ['/']) [['c', 'd', ' ', 'd']]
    changes? ['c', 'd', ' ', 'd'] (atRoot ['/']) = some [['d']] ∧
    Moves [['d']] (atRoot ['/']).world moved.world ∧
    moved.world.Located ∧
    ∃ before line arguments later,
      LastChange (atRoot ['/']) lines before line arguments later := by
  intro lines moved
  have hchanges : changes? ['c', 'd', ' ', 'd'] (atRoot ['/']) = some [['d']] := rfl
  have hrun : execute Machine.host ['c', 'd', ' ', 'd'] (atRoot ['/']) = .ok () moved := rfl
  obtain ⟨hone, hany⟩ := directory_variables_true_iff (atRoot ['/'])
  have hmoves := (hone _ _ hchanges).1 moved hrun
  refine ⟨hchanges, hmoves, hmoves.located.mpr ?_, ?_⟩
  · rintro ⟨hnone, -⟩
    exact absurd hnone (by decide)
  · have hlines : ∀ line ∈ lines, (changes? line (atRoot ['/'])).isSome := by decide
    rcases hany lines hlines with ⟨hfailed, -⟩ | hlast
    · obtain ⟨stop, hstop⟩ := hfailed ['c', 'd', ' ', 'd'] List.mem_cons_self
      rw [hrun] at hstop
      exact nomatch hstop
    · exact hlast

/-- Who goes home by a relative path gets there, and is told a path that leads nowhere from
there. -/
theorem pwd_relative_after_relative_home :
    let lost := afterLines (atRoot ['d']) [['c', 'd']]
    changes? ['c', 'd'] (atRoot ['d']) = some [] ∧
    execute Machine.host ['c', 'd'] (atRoot ['d']) = .ok () lost ∧
    lost.world.directory = inside.directory ∧
    lost.world.exported? "PWD" = some ['d'] ∧
    Path.isAbsolute ['d'] = false ∧
    lost.world.files.find lost.world.directory ['d'] = .error (.system .noEntry) := by
  refine ⟨rfl, rfl, rfl, rfl, rfl, rfl⟩

end Shell

end Conch
