import Conch.Proofs.Shell.ExitRule

/-!
# What the arguments make the program do

Arguments fit the usage if they can be read, no flag is given twice and there is one positional at
most; the positional is a line if `-c` is given and the path of a file if not (`fit_eq_ok_iff`).
The program turns to a line or a file if it finds `-c` or a path, and only then looks which of the
two it has got.  A flag and a positional are two things: with `-c` alone the first pattern fits,
which asks for no positional, so the program finds neither (`neither_iff_stranded`).

Whether an empty positional counts as given is left open by how the fields are read (`Fields.of`);
for the program it does (`source_fields`).
-/

namespace Conch.CommandLine

/-! ## Arguments that fit -/

/-- The flags that were given, without their values. -/
def given (items : List Argument) : List Flag :=
  (Usage.flagsOf items).map Prod.fst

/-- What was read fits the usage: no flag is given twice, and there is one positional at most. -/
structure Fits (items : List Argument) : Prop where
  once : (given items).Nodup
  single : (Usage.positionalsOf items).length ≤ 1

/-- What a positional is called. -/
def positionalName (items : List Argument) : String :=
  if lineFlag ∈ given items then linePositional.name else filePositional.name

/-- What fits is matched to this. -/
def matchOf (items : List Argument) : Matched where
  flags := Usage.flagsOf items
  positionals := (Usage.positionalsOf items).map fun text => (positionalName items, text)

variable {items : List Argument} {matched : Matched} {arguments : List Text}

/-- A flag is found in what was matched exactly if it is among the arguments. -/
theorem has_matchOf (items : List Argument) (flag : Flag) :
    (matchOf items).has flag = true ↔ flag ∈ given items := by
  simp [Matched.has, matchOf, given]

theorem has_eq_decide (items : List Argument) (flag : Flag) :
    (matchOf items).has flag = decide (flag ∈ given items) := by
  rw [Bool.eq_iff_iff, has_matchOf, decide_eq_true_iff]

/-- The arguments fit a pattern of the usage exactly if no flag is given twice and there is one
positional at most, and what is matched then is the arguments themselves. -/
theorem findSome?_patterns (items : List Argument) :
    (usage.patterns.findSome? fun pattern => Usage.matchPattern pattern items) =
      if (given items).Nodup ∧ (Usage.positionalsOf items).length ≤ 1 then some (matchOf items)
      else none := by
  have hgiven : (Usage.flagsOf items).map Prod.fst = given items := rfl
  by_cases honce : (given items).Nodup
  · by_cases hline : lineFlag ∈ given items <;>
      match htexts : Usage.positionalsOf items with
      | [] | [text] | _ :: _ :: _ =>
        simp [usage, Usage.matchPattern, Usage.namePositionals, matchOf, positionalName, hgiven,
          honce, hline, htexts]
  · simp [usage, Usage.matchPattern, hgiven, honce]

/-- **Which arguments fit**: those that can be read, with no flag given twice and one positional at
most; and they are matched to just this. -/
theorem fit_eq_ok_iff : usage.fit arguments = .ok matched ↔
    ∃ items, usage.readArguments arguments = .ok items ∧ Fits items ∧ matched = matchOf items := by
  rw [Usage.fit]
  cases hread : usage.readArguments arguments with
  | error fault => simp
  | ok items =>
      simp only [findSome?_patterns, Except.ok.injEq]
      constructor
      · intro h
        split at h
        · next hfits =>
            split at hfits
            · next hfit =>
                obtain rfl := Option.some.inj hfits
                exact ⟨items, rfl, ⟨hfit.1, hfit.2⟩, (Except.ok.inj h).symm⟩
            · exact nomatch hfits
        · exact nomatch h
      · rintro ⟨_, rfl, hfits, rfl⟩
        rw [if_pos ⟨hfits.once, hfits.single⟩]

/-! ## The fields -/

/-- What the program asks its arguments for when it looks for the commands: the line and the path of
the file, if they are given, and whether the version is asked for and `-c` is given. -/
structure Fields where
  command : Option Text
  file : Option Text
  version : Bool
  line : Bool

namespace Fields

/-- Read the fields; `blanks` says whether an empty positional counts as given. -/
def of (blanks : Bool) (matched : Matched) : Fields where
  command := (matched.positional? linePositional.name).filter fun text => blanks || !text.isEmpty
  file := (matched.positional? filePositional.name).filter fun text => blanks || !text.isEmpty
  version := matched.has versionFlag
  line := matched.has lineFlag

/-- Does the program turn to a line or a file? -/
def turns (f : Fields) : Bool :=
  !f.version && (f.line || f.file.isSome)

/-- Has it got a line or a file? -/
def Finds (f : Fields) : Prop :=
  f.command.isSome = true ∨ f.file.isSome = true

/-- What the program does. -/
def source (f : Fields) : CommandSource :=
  if f.version then .version
  else if f.line || f.file.isSome then
    match f.command, f.file with
    | some text, _ => .line text
    | none, some path => .file path
    | none, none => .missingLine
  else .standardInput

variable {f : Fields}

/-- The program comes to the line that is not given exactly if it looks for a line where there is
none. -/
theorem source_eq_missingLine_iff : f.source = .missingLine ↔ f.turns = true ∧ ¬ f.Finds := by
  obtain ⟨command, file, version, line⟩ := f
  cases version <;> cases line <;> cases command <;> cases file <;> simp [source, turns, Finds]

end Fields

/-- The only positional, if it counts as given. -/
def positional? (blanks : Bool) (items : List Argument) : Option Text :=
  (Usage.positionalsOf items).head?.filter fun text => blanks || !text.isEmpty

/-- The one positional goes by the name that its pattern gives it, which depends on whether `-c` is
there; no other name has a value. -/
theorem positional?_matchOf (hfits : Fits items) (name : String) :
    (matchOf items).positional? name =
      if positionalName items = name then (Usage.positionalsOf items).head? else none := by
  have hsingle := hfits.single
  rw [Matched.positional?, matchOf]
  match htexts : Usage.positionalsOf items with
  | [] => simp
  | [text] =>
      by_cases hname : positionalName items = name
      · simp [hname]
      · have hother : (name == positionalName items) = false := by simpa using Ne.symm hname
        simp [List.lookup_cons, hname, hother]
  | _ :: _ :: _ => simp [htexts] at hsingle

/-- With `-c` the positional is a line, and without it a path. -/
theorem fields_of_fits (blanks : Bool) (hfits : Fits items) :
    Fields.of blanks (matchOf items) =
      { command := if lineFlag ∈ given items then positional? blanks items else none
        file := if lineFlag ∈ given items then none else positional? blanks items
        version := decide (versionFlag ∈ given items)
        line := decide (lineFlag ∈ given items) } := by
  have hnames : filePositional.name ≠ linePositional.name := by decide
  rw [Fields.of, has_eq_decide, has_eq_decide, positional?_matchOf hfits, positional?_matchOf hfits,
    positionalName]
  by_cases hline : lineFlag ∈ given items
  · simp [hline, hnames.symm, positional?]
  · simp [hline, hnames, positional?]

/-- `-c` is given, but nothing for it to execute: nothing else is asked for, and there is no
positional, or an empty one that does not count. -/
structure Stranded (blanks : Bool) (items : List Argument) : Prop where
  line : lineFlag ∈ given items
  help : helpFlag ∉ given items
  version : versionFlag ∉ given items
  absent : ∀ text ∈ Usage.positionalsOf items, blanks = false ∧ text = []

/-- Nothing is there to be executed exactly if there is no positional, or if the only one is empty
and does not count. -/
theorem positional?_eq_none_iff (blanks : Bool) (hfits : Fits items) :
    positional? blanks items = none ↔
      ∀ text ∈ Usage.positionalsOf items, blanks = false ∧ text = [] := by
  have hsingle := hfits.single
  rw [positional?]
  match htexts : Usage.positionalsOf items with
  | [] => simp
  | [text] => simp
  | _ :: _ :: _ => simp [htexts] at hsingle

/-- **When the program turns to a line or a file and finds neither.** -/
theorem neither_iff_stranded (blanks : Bool) (hfits : Fits items) (hhelp : helpFlag ∉ given items) :
    (Fields.of blanks (matchOf items)).source = .missingLine ↔ Stranded blanks items := by
  rw [Fields.source_eq_missingLine_iff, fields_of_fits blanks hfits]
  by_cases hline : lineFlag ∈ given items
  · have habsent := positional?_eq_none_iff blanks hfits
    simp only [Fields.turns, Fields.Finds, hline, if_true, decide_true, Bool.true_or, Bool.and_true,
      Bool.not_eq_true', decide_eq_false_iff_not, Option.isSome_none, Bool.false_eq_true, or_false,
      Option.not_isSome_iff_eq_none, habsent]
    exact ⟨fun h => ⟨hline, hhelp, h.1, h.2⟩, fun h => ⟨h.version, h.absent⟩⟩
  · -- The program turns to a file only if it has found one.
    simp only [Fields.turns, Fields.Finds, hline, if_false, decide_false, Bool.false_or]
    refine iff_of_false ?_ fun h => hline h.line
    rintro ⟨hturns, hneither⟩
    exact hneither (.inr (Bool.and_eq_true_iff.mp hturns).2)

/-- Where empty positionals count, the fields say what the program takes from its arguments. -/
theorem source_fields (hfits : Fits items) :
    (Fields.of true (matchOf items)).source = sourceOf (matchOf items) := by
  have hall : positional? true items = (Usage.positionalsOf items).head? := by
    rw [positional?]
    cases (Usage.positionalsOf items).head? <;> rfl
  have hnames : filePositional.name ≠ linePositional.name := by decide
  rw [fields_of_fits true hfits, hall, Fields.source, sourceOf, positional?_matchOf hfits,
    positional?_matchOf hfits, positionalName, has_eq_decide, has_eq_decide]
  by_cases hline : lineFlag ∈ given items <;> cases (Usage.positionalsOf items).head? <;>
    simp [hline, hnames, hnames.symm]

/-! ## The program -/

/-- Read the arguments of the program; `blanks` says whether an empty positional counts as given. -/
def readBy (blanks : Bool) (arguments : List Text) : Reading :=
  match usage.fit arguments with
  | .error fault => .refused (usage.report fault)
  | .ok matched =>
    if matched.has helpFlag then .help
    else match maxJobs matched with
      | .error message => .refused message
      | .ok maxJobs =>
        .accepted
          { log := matched.value? logFlag, maxJobs, source := (Fields.of blanks matched).source }

/-- The program reads its arguments as the rule does by which an empty positional counts. -/
theorem readBy_true (arguments : List Text) : readBy true arguments = read arguments := by
  rw [readBy, read]
  cases hfit : usage.fit arguments with
  | error fault => rfl
  | ok matched =>
      obtain ⟨items, -, hfits, rfl⟩ := fit_eq_ok_iff.mp hfit
      have hsource := source_fields hfits
      cases hjobs : maxJobs (matchOf items) <;> simp only [hjobs, hsource]

section Program

variable {σ : Type} (H : Host σ) (terminal : Bool) (pid : UInt32) (signals : SignalState)
  (world : σ)

/-- Do what the arguments come to. -/
def follow : Reading → Ending × σ
  | .help => (.exited 0, H.print helpText world)
  | .refused message => (.exited failureCode, H.printError (message ++ "\n") world)
  | .accepted invocation =>
    outcome (perform H invocation.source) (started H terminal pid signals invocation world)

/-- The program reads its arguments, where a blank one counts as any other, and follows what it has
read. -/
theorem run_eq_follow (arguments : List Text) :
    run H terminal pid signals arguments world =
      follow H terminal pid signals world (readBy true arguments) := by
  rw [readBy_true, run]
  cases read arguments <;> rfl

/-- A run shows a text, or executes the commands that it has got. -/
inductive Serves : Reading → Ending × σ → Prop where
  | help : Serves .help (.exited 0, H.print helpText world)
  | version (log : Option Text) (maxJobs : Nat) :
      Serves (.accepted { log, maxJobs, source := .version })
        (.exited 0, H.print versionText (openLog H log world))
  | line (log : Option Text) (maxJobs : Nat) (text : Text) :
      Serves (.accepted { log, maxJobs, source := .line text })
        (outcome (conclude H (Shell.execute H text))
          (started H terminal pid signals { log, maxJobs, source := .line text } world))
  | file (log : Option Text) (maxJobs : Nat) (path : Text) :
      Serves (.accepted { log, maxJobs, source := .file path })
        (outcome (conclude H (Shell.executeFile H path))
          (started H terminal pid signals { log, maxJobs, source := .file path } world))
  | standardInput (log : Option Text) (maxJobs : Nat) :
      Serves (.accepted { log, maxJobs, source := .standardInput })
        (outcome (conclude H (Shell.executeStandardInput H))
          (started H terminal pid signals { log, maxJobs, source := .standardInput } world))

variable {H terminal pid signals world}

/-- A run that follows its arguments serves what was asked for unless a line was asked for that is
not given. -/
theorem serves_follow_iff (invocation : Invocation) :
    Serves H terminal pid signals world (.accepted invocation)
        (follow H terminal pid signals world (.accepted invocation)) ↔
      invocation.source ≠ .missingLine := by
  obtain ⟨log, maxJobs, source⟩ := invocation
  cases source with
  | version => exact iff_of_true (.version log maxJobs) nofun
  | line text => exact iff_of_true (.line log maxJobs text) nofun
  | file path => exact iff_of_true (.file log maxJobs path) nofun
  | standardInput => exact iff_of_true (.standardInput log maxJobs) nofun
  | missingLine => exact iff_of_false nofun fun h => h rfl

/-- **The program finds its commands unless it is stranded.**  Take arguments that it accepts, and
let empty positionals count as given or not (for the program they do).  It turns to a line or a file
only if it has got one, and the run shows the help or the version or executes the line, the file or
standard input, exactly if it is not so that `-c` is given with nothing to execute, and neither the
help nor the version is asked for; if that is so, the run crashes. -/
theorem commands_found_iff_not_stranded (H : Host σ) (terminal : Bool) (pid : UInt32)
    (signals : SignalState) (world : σ) (arguments : List Text) (blanks : Bool)
    (haccepts : ∀ message, readBy blanks arguments ≠ .refused message) :
    ∃ items, usage.readArguments arguments = .ok items ∧
      usage.fit arguments = .ok (matchOf items) ∧
      (((matchOf items).has helpFlag = false ∧ (Fields.of blanks (matchOf items)).turns = true →
          (Fields.of blanks (matchOf items)).Finds) ↔ ¬ Stranded blanks items) ∧
      (Serves H terminal pid signals world (readBy blanks arguments)
          (follow H terminal pid signals world (readBy blanks arguments)) ↔
        ¬ Stranded blanks items) ∧
      (Stranded blanks items →
        (follow H terminal pid signals world (readBy blanks arguments)).1 = .crashed) ∧
      run H terminal pid signals arguments world =
        follow H terminal pid signals world (readBy true arguments) := by
  rcases hfit : usage.fit arguments with fault | matched
  · exact absurd (by rw [readBy, hfit]) (haccepts (usage.report fault))
  obtain ⟨items, hread, hfits, rfl⟩ := fit_eq_ok_iff.mp hfit
  refine ⟨items, hread, rfl, ?_⟩
  by_cases hhelp : helpFlag ∈ given items
  · have hnot : ¬ Stranded blanks items := fun h => h.help hhelp
    have hhas : (matchOf items).has helpFlag = true := (has_matchOf items helpFlag).mpr hhelp
    have hreading : readBy blanks arguments = .help := by
      simp only [readBy, hfit, hhas, if_true]
    rw [hreading, hhas]
    exact ⟨iff_of_true (fun h => nomatch h.1) hnot, iff_of_true .help hnot,
      fun h => absurd h hnot, run_eq_follow H terminal pid signals world arguments⟩
  · have hhas : (matchOf items).has helpFlag = false := by
      rw [has_eq_decide, decide_eq_false hhelp]
    have hmissing := neither_iff_stranded blanks hfits hhelp
    rcases hjobs : maxJobs (matchOf items) with message | maxJobs
    · refine absurd ?_ (haccepts message)
      simp only [readBy, hfit, hhas, hjobs, Bool.false_eq_true, if_false]
    have hreading : readBy blanks arguments = .accepted
        { log := (matchOf items).value? logFlag, maxJobs
          source := (Fields.of blanks (matchOf items)).source } := by
      simp only [readBy, hfit, hhas, hjobs, Bool.false_eq_true, if_false]
    rw [hreading, hhas, serves_follow_iff, ← hmissing]
    refine ⟨?_, Iff.rfl, fun h => ?_, run_eq_follow H terminal pid signals world arguments⟩
    · rw [Fields.source_eq_missingLine_iff, not_and_not_right]
      exact ⟨fun h hturns => h ⟨rfl, hturns⟩, fun h hturns => h hturns.2⟩
    · simp only [h]
      rfl

/-- Given a line, or the empty one, the program finds it. -/
theorem commands_found_with_line :
    (∀ message, readBy true ["-c".toList, []] ≠ .refused message) ∧
    Serves plainHost false 1 {} {} (readBy true ["-c".toList, []])
      (follow plainHost false 1 {} {} (readBy true ["-c".toList, []])) := by
  have haccepts : ∀ message, readBy true ["-c".toList, []] ≠ .refused message := by
    have hread : readBy true ["-c".toList, []] =
        .accepted { log := none, maxJobs := 200, source := .line [] } := by decide +kernel
    rw [hread]
    exact nofun
  obtain ⟨items, hitems, -, -, hserves, -, -⟩ :=
    commands_found_iff_not_stranded plainHost false 1 {} {} ["-c".toList, []] true haccepts
  have hread : usage.readArguments ["-c".toList, []] =
      .ok [.flag lineFlag none, .positional []] := by decide +kernel
  obtain rfl := Except.ok.inj (hitems.symm.trans hread)
  refine ⟨haccepts, hserves.mpr fun h => ?_⟩
  have habsent := h.absent [] (by simp [Usage.positionalsOf])
  exact nomatch habsent.1

/-- `-c` alone is accepted, and the program then looks for a line and for a file, finds neither, and
crashes, whether empty positionals count or not. -/
theorem crash_of_line_flag_alone :
    (run plainHost false 1 {} ["-c".toList] {}).1 = .crashed ∧
    ∀ blanks, ¬ ∀ arguments, (∀ message, readBy blanks arguments ≠ .refused message) →
      Serves plainHost false 1 {} {} (readBy blanks arguments)
        (follow plainHost false 1 {} {} (readBy blanks arguments)) := by
  refine ⟨by decide +kernel, fun blanks hserves => ?_⟩
  have hread : readBy blanks ["-c".toList] =
      .accepted { log := none, maxJobs := 200, source := .missingLine } := by
    cases blanks <;> decide +kernel
  have haccepts : ∀ message, readBy blanks ["-c".toList] ≠ .refused message := by
    rw [hread]
    exact nofun
  have hline := hserves ["-c".toList] haccepts
  rw [hread] at hline
  exact nomatch hline

end Program

end Conch.CommandLine
