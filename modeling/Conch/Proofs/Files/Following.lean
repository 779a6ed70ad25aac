import Conch.Files.Walk

/-!
# How paths are followed

A name on a way is passed over, leads up, or is looked up (`stretch_cons_eq`); a way without links
is followed to its end at once (`follow_of_whole`); and a path leads to a file if it can be followed
and its names lead there (`resolve_eq_ok_iff`).

Who follows a path to create what is missing comes to where he would come without that purpose
(`resolve_creation`), so what he finds is what is there, and what he finds vacant is a name that a
directory does not have (`vacant_of_follow`).
-/

namespace Conch.FileTree

variable {t : FileTree} {purpose : Purpose} {here directory file : FileId} {name : Text}
  {names : List Text} {links : Nat} {destination : Destination}

/-! ## One step -/

/-- Where a name leads that is looked up in a directory, with names behind it. -/
def look (t : FileTree) (purpose : Purpose) (here : FileId) (name : Text) (rest : List Text) :
    Stretch :=
  match t.entry? here name with
  | none => if rest = [] then .whole (.vacant here name) else .failed .noEntry
  | some file =>
    match t.node? file with
    | some (.link target) =>
      if rest = [] && purpose = .entry then .whole (.found file) else .link here target rest
    | _ => t.stretch purpose file rest

/-- A name is passed over, or leads up, or is no good, or it is looked up. -/
theorem stretch_cons_eq (t : FileTree) (purpose : Purpose) (here : FileId) (name : Text)
    (rest : List Text) : t.stretch purpose here (name :: rest) =
      if !t.isDirectory here then .failed .notDirectory
      else if name = [] || name = ['.'] then t.stretch purpose here rest
      else if name = ['.', '.'] then t.stretch purpose (t.parent here) rest
      else if purpose = .creation && rest != [] && rest.all (· = []) then .failed .isDirectory
      else if Utf8.size name > nameLimit then .failed .nameTooLong
      else t.look purpose here name rest := by
  rw [stretch]
  rfl

/-- Without any name one stays where one is, if there is something. -/
theorem stretch_nil (h : (t.node? here).isSome = true) :
    t.stretch purpose here [] = .whole (.found here) := by
  rw [stretch, if_pos h]

/-! ## Links -/

/-- Who gets to the end need not follow a link. -/
theorem follow_of_whole (h : t.stretch purpose here names = .whole destination) :
    t.follow purpose links here names = .ok destination := by
  cases links <;> rw [follow, h]

/-- If the names cannot be followed up to the first link, the whole path cannot be, for the same
reason. -/
theorem follow_of_failed {errno : Errno} (h : t.stretch purpose here names = .failed errno) :
    t.follow purpose links here names = .error errno := by
  cases links <;> rw [follow, h]

/-- A path leads somewhere if it can be followed, and its names lead there. -/
theorem resolve_eq_ok_iff {path : Text} : t.resolve purpose here path = .ok destination ↔
    checkPath path = .ok () ∧
      t.follow purpose linkLimit (start here path) (Path.names path) = .ok destination := by
  unfold resolve
  cases checkPath path with
  | error e => simp
  | ok =>
      cases t.follow purpose linkLimit (start here path) (Path.names path) with
      | error errno => exact iff_of_false (fun h => by cases h) fun h => by cases h.2
      | ok other =>
          constructor
          · intro h
            obtain rfl := Except.ok.inj h
            exact ⟨rfl, rfl⟩
          · rintro ⟨-, h⟩
            obtain rfl := Except.ok.inj h
            rfl

/-- A path is found to lead to a file exactly if it is resolved to one, and not to a name that is
vacant. -/
theorem findFor_eq_ok_iff {path : Text} : t.findFor purpose here path = .ok file ↔
    t.resolve purpose here path = .ok (.found file) := by
  unfold findFor
  cases t.resolve purpose here path with
  | error e => simp
  | ok other => cases other <;> simp

/-- At a vacant name there is no file, and that is the error that is reported. -/
theorem find_of_vacant {path : Text}
    (h : t.resolve .target here path = .ok (.vacant directory name)) :
    t.find here path = .error (.system .noEntry) := by
  rw [find, findFor, h]

/-! ## What is at the end -/

/-- Whatever names lead to is there, even if no name is followed. -/
theorem isSome_of_stretch (h : t.stretch purpose here names = .whole (.found file)) :
    (t.node? file).isSome = true := by
  fun_induction t.stretch purpose here names with
  | case1 here hthere =>
      obtain rfl := Destination.found.inj (Stretch.whole.inj h)
      exact hthere
  | case4 _ _ _ _ _ ih => exact ih h
  | case5 _ _ _ _ ih => exact ih h
  | case10 _ _ _ _ _ _ _ _ _ _ target hlink _ =>
      obtain rfl := Destination.found.inj (Stretch.whole.inj h)
      rw [hlink]
      rfl
  | case12 _ _ _ _ _ _ _ _ _ _ _ ih => exact ih h
  | _ => exact nomatch h

/-- A vacant name is one that a directory does not have. -/
theorem vacant_of_stretch (h : t.stretch purpose here names = .whole (.vacant directory name)) :
    t.isDirectory directory = true ∧ t.entry? directory name = none := by
  fun_induction t.stretch purpose here names with
  | case4 _ _ _ _ _ ih => exact ih h
  | case5 _ _ _ _ ih => exact ih h
  | case8 here n hdirectory _ _ _ hnone _ =>
      obtain ⟨rfl, rfl⟩ := Destination.vacant.inj (Stretch.whole.inj h)
      exact ⟨by simpa using hdirectory, hnone⟩
  | case12 _ _ _ _ _ _ _ _ _ _ _ ih => exact ih h
  | _ => exact nomatch h

/-- What is found at the end of a path is there. -/
theorem isSome_of_follow (h : t.follow purpose links here names = .ok (.found file)) :
    (t.node? file).isSome = true := by
  fun_induction t.follow purpose links here names with
  | case1 _ _ _ destination hstretch =>
      obtain rfl := Except.ok.inj h
      exact isSome_of_stretch hstretch
  | case4 _ _ _ _ _ _ _ ih => exact ih h
  | _ => exact nomatch h

/-- Where a path leads there is something, which can be looked at. -/
theorem exists_node (h : t.findFor purpose here path = .ok file) :
    ∃ node, t.node? file = some node :=
  Option.isSome_iff_exists.mp
    (isSome_of_follow (resolve_eq_ok_iff.mp (findFor_eq_ok_iff.mp h)).2)

/-- What is vacant at the end of a path is a name that a directory does not have. -/
theorem vacant_of_follow (h : t.follow purpose links here names = .ok (.vacant directory name)) :
    t.isDirectory directory = true ∧ t.entry? directory name = none := by
  fun_induction t.follow purpose links here names with
  | case1 _ _ _ destination hstretch =>
      obtain rfl := Except.ok.inj h
      exact vacant_of_stretch hstretch
  | case4 _ _ _ _ _ _ _ ih => exact ih h
  | _ => exact nomatch h

/-! ## The purpose of creation -/

/-- Who wants to create what is missing fails, or comes to where he would come without that. -/
theorem stretch_creation (here : FileId) (names : List Text) :
    (∃ errno, t.stretch .creation here names = .failed errno) ∨
      t.stretch .target here names = t.stretch .creation here names := by
  induction names generalizing here with
  | nil => exact .inr rfl
  | cons name rest ih =>
      rw [stretch_cons_eq, stretch_cons_eq]
      split
      · exact .inr rfl
      split
      · exact ih here
      split
      · exact ih (t.parent here)
      split
      · exact .inl ⟨.isDirectory, rfl⟩
      have hnot : ¬ (Purpose.target = .creation && rest != [] && rest.all (· = [])) = true := by
        simp
      rw [if_neg hnot]
      split
      · exact .inr rfl
      unfold look
      cases t.entry? here name with
      | none => exact .inr rfl
      | some file =>
          dsimp only
          split
          · exact .inr (by simp)
          · exact ih file

/-- Where a path that is followed to create a file leads to something that is there, it leads to the
same when it is just followed. -/
theorem follow_creation (h : t.follow .creation links here names = .ok destination) :
    t.follow .target links here names = .ok destination := by
  induction links generalizing here names with
  | zero =>
      rcases t.stretch_creation here names with ⟨errno, hfailed⟩ | hsame
      · rw [follow_of_failed hfailed] at h
        exact nomatch h
      · rw [follow, hsame]
        rwa [follow] at h
  | succ links ih =>
      rcases t.stretch_creation here names with ⟨errno, hfailed⟩ | hsame
      · rw [follow_of_failed hfailed] at h
        exact nomatch h
      · rw [follow, hsame]
        rw [follow] at h
        cases hstretch : t.stretch .creation here names with
        | whole destination => rwa [hstretch] at h
        | failed errno => rwa [hstretch] at h
        | link directory target rest =>
            rw [hstretch] at h
            exact ih h

/-- Where a path leads when a file is to be created is where it leads otherwise, if it leads
anywhere. -/
theorem resolve_creation {path : Text} (h : t.resolve .creation here path = .ok destination) :
    t.resolve .target here path = .ok destination := by
  rw [resolve_eq_ok_iff] at h ⊢
  exact ⟨h.1, follow_creation h.2⟩

end Conch.FileTree
