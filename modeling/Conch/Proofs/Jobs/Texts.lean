import Conch.Process.Job
import Conch.Text.Decimal
import Mathlib.Data.List.Infix

/-!
# Lines about background jobs

All that a shell prints about its background jobs begins alike, then names a process, and then says
that it has begun or how it was completed.  `cut?` takes such a line apart, so the lines can be told
from each other and from all else that is printed: the number of a process has no blank in it, and
so ends where the line goes on.
-/

namespace Conch

/-! ## Names of processes -/

namespace ProcessId

/-- The name of a process is its number in decimal digits, with a sign before a negative one; so
there is no blank in it. -/
theorem text_eq (pid : ProcessId) : pid.text.toList =
    if 0 ≤ pid.raw.toInt then Text.decimal pid.raw.toInt.toNat
    else '-' :: Text.decimal (-pid.raw.toInt).toNat := by
  have hnat : ∀ n : Nat, n.repr.toList = Text.decimal n := by
    intro n
    rw [Nat.repr_eq_ofList_toDigits, String.toList_ofList]
    rfl
  rw [text, Int.toString_eq_repr, Int.repr_eq_if]
  split
  · exact hnat _
  · rw [String.toList_append, hnat]
    rfl

/-- There is no blank in the name of a process. -/
theorem not_mem_text (pid : ProcessId) : ' ' ∉ pid.text.toList := by
  have hdigits : ∀ n : Nat, ' ' ∉ Text.decimal n := by
    intro n hmem
    have hdigit := Text.isDigit_of_mem_decimal hmem
    exact absurd hdigit (by decide)
  rw [text_eq]
  split
  · exact hdigits _
  · intro hmem
    rcases List.mem_cons.mp hmem with hminus | hmem
    · exact absurd hminus (by decide)
    · exact hdigits _ hmem

/-- Different processes have different names, so that a line about a job tells which one it is. -/
theorem text_injective {p q : ProcessId} (h : p.text.toList = q.text.toList) : p = q := by
  have hdecimal : ∀ {m n : Nat}, Text.decimal m = Text.decimal n → m = n := by
    intro m n hsame
    rw [← Text.digitsValue_decimal m, hsame, Text.digitsValue_decimal]
  have hminus : ∀ (m : Nat) (rest : Text), Text.decimal m ≠ '-' :: rest := by
    intro m rest hsame
    have hdigit : '-'.isDigit = true :=
      Text.isDigit_of_mem_decimal (n := m) (by simp [hsame])
    exact absurd hdigit (by decide)
  have hraw : p.raw.toInt = q.raw.toInt := by
    rw [text_eq, text_eq] at h
    by_cases hp : 0 ≤ p.raw.toInt
    · by_cases hq : 0 ≤ q.raw.toInt
      · rw [if_pos hp, if_pos hq] at h
        have hsame := hdecimal h
        omega
      · rw [if_pos hp, if_neg hq] at h
        exact absurd h (hminus _ _)
    · by_cases hq : 0 ≤ q.raw.toInt
      · rw [if_neg hp, if_pos hq] at h
        exact absurd h.symm (hminus _ _)
      · rw [if_neg hp, if_neg hq] at h
        have hsame := hdecimal (List.cons.inj h).2
        omega
  cases p
  cases q
  exact congrArg mk (Int32.toInt_inj.mp hraw)

end ProcessId

/-! ## Lines -/

namespace Job

/-- How every line about a job begins. -/
def opening : Text := "Background process ".toList

/-- What a line says of a process that has begun. -/
def begunSaid : Text := " has begun\n".toList

/-- What a line first says of a process that is completed. -/
def completedSaid : Text := " has completed: ".toList

/-- A line about a job, cut after the name of the process. -/
def cut? (text : String) : Option (Text × Text) :=
  if opening.isPrefixOf text.toList then
    let rest := text.toList.drop opening.length
    some (rest.takeWhile (· ≠ ' '), rest.dropWhile (· ≠ ' '))
  else none

/-- The name of the process of which the line says that it has begun. -/
def begun? (text : String) : Option Text :=
  (cut? text).bind fun line => if line.2 = begunSaid then some line.1 else none

/-- The name of the process of which the line says that it is completed. -/
def completed? (text : String) : Option Text :=
  (cut? text).bind fun line => if completedSaid.isPrefixOf line.2 then some line.1 else none

/-- A text that opens as the lines about jobs do is cut into the name of the process and what is
said about it. -/
theorem cut?_eq {text : String} {name rest : Text} (hname : ' ' ∉ name)
    (hgap : rest.head? = some ' ') (htext : text.toList = opening ++ (name ++ rest)) :
    cut? text = some (name, rest) := by
  have hopens : opening.isPrefixOf text.toList = true := by
    rw [htext, List.isPrefixOf_iff_prefix]
    exact List.prefix_append _ _
  have hrest : text.toList.drop opening.length = name ++ rest := by rw [htext, List.drop_left]
  have hsolid : ∀ c ∈ name, decide (c ≠ ' ') = true := by
    intro c hc
    have hne : c ≠ ' ' := fun h => hname (h ▸ hc)
    simpa using hne
  obtain ⟨more, rfl⟩ := List.head?_eq_some_iff.mp hgap
  have htake : (name ++ ' ' :: more).takeWhile (fun c => decide (c ≠ ' ')) = name := by
    rw [List.takeWhile_append_of_pos hsolid]
    simp
  have hdrop : (name ++ ' ' :: more).dropWhile (fun c => decide (c ≠ ' ')) = ' ' :: more := by
    rw [List.dropWhile_append_of_pos hsolid]
    simp
  rw [cut?, if_pos hopens, hrest]
  dsimp only
  rw [htake, hdrop]

/-- A text that does not begin as the lines about jobs do is not about one. -/
theorem cut?_eq_none {text : String} (h : text.toList.head? ≠ some 'B') : cut? text = none := by
  refine if_neg fun hopens => h ?_
  obtain ⟨rest, hrest⟩ := List.isPrefixOf_iff_prefix.mp hopens
  rw [← hrest]
  rfl

/-- The line that announces a job is about its process, and says that it has begun. -/
theorem cut?_begunText (pid : ProcessId) :
    cut? (begunText pid ++ "\n") = some (pid.text.toList, begunSaid) := by
  have hparts : begunText pid = "Background process " ++ pid.text ++ " has begun" := rfl
  have hopening : opening = "Background process ".toList := rfl
  have hsaid : begunSaid = " has begun".toList ++ "\n".toList := by decide
  have htext : (begunText pid ++ "\n").toList = opening ++ (pid.text.toList ++ begunSaid) := by
    rw [hparts, hsaid, hopening]
    simp only [String.toList_append, List.append_assoc]
  exact cut?_eq pid.not_mem_text (by decide) htext

/-- The line about a job that has ended is about its process, and says that it is completed, and
how. -/
theorem cut?_text {job : Job} {cause : Completion} (hcause : job.cause = some cause) :
    cut? (job.text ++ "\n") =
      some (job.pid.text.toList, completedSaid ++ (cause.text ++ "\n").toList) := by
  have hparts : job.text =
      "Background process " ++ job.pid.text ++ " has completed: " ++ cause.text := by
    rw [text, hcause]
    rfl
  have hopening : opening = "Background process ".toList := rfl
  have hsaid : completedSaid = " has completed: ".toList := rfl
  have htext : (job.text ++ "\n").toList =
      opening ++ (job.pid.text.toList ++ (completedSaid ++ (cause.text ++ "\n").toList)) := by
    rw [hparts, hopening, hsaid]
    simp only [String.toList_append, List.append_assoc]
  have hgap : (completedSaid ++ (cause.text ++ "\n").toList).head? = some ' ' := by
    have hfirst : completedSaid.head? = some ' ' := by decide
    rw [List.head?_append, hfirst]
    rfl
  exact cut?_eq job.pid.not_mem_text hgap htext

/-! What the lines say. -/

/-- The line that announces a job is understood as such, with its process. -/
theorem begun?_begunText (pid : ProcessId) :
    begun? (begunText pid ++ "\n") = some pid.text.toList := by
  rw [begun?, cut?_begunText, Option.bind_some, if_pos rfl]

/-- The line that announces a job is not taken for one about a completion. -/
theorem completed?_begunText (pid : ProcessId) : completed? (begunText pid ++ "\n") = none := by
  have hother : completedSaid.isPrefixOf begunSaid = false := by decide
  rw [completed?, cut?_begunText, Option.bind_some, hother]
  rfl

/-- The line about a job that has ended is not taken for an announcement. -/
theorem begun?_text {job : Job} {cause : Completion} (hcause : job.cause = some cause) :
    begun? (job.text ++ "\n") = none := by
  have hother : ∀ rest, completedSaid ++ rest ≠ begunSaid := by
    intro rest hsame
    have hstart := congrArg (List.take 6) hsame
    rw [List.take_append_of_le_length (by decide)] at hstart
    exact absurd hstart (by decide)
  rw [begun?, cut?_text hcause, Option.bind_some, if_neg (hother _)]

/-- The line about a job that has ended is understood as such, with its process. -/
theorem completed?_text {job : Job} {cause : Completion} (hcause : job.cause = some cause) :
    completed? (job.text ++ "\n") = some job.pid.text.toList := by
  have hsaid : completedSaid.isPrefixOf (completedSaid ++ (cause.text ++ "\n").toList) = true :=
    List.isPrefixOf_iff_prefix.mpr (List.prefix_append _ _)
  rw [completed?, cut?_text hcause, Option.bind_some, hsaid]
  rfl

/-! How the lines of a shell begin. -/

/-- The line about a job begins with the letter `B`, which tells it from the announcement of a
mode. -/
theorem head?_text (job : Job) : (job.text ++ "\n").toList.head? = some 'B' := by
  have hfirst : (toString "Background process ").toList.head? = some 'B' := by decide
  unfold text
  cases job.cause <;> simp [String.toList_append, List.head?_append, hfirst]

theorem head?_begunText (pid : ProcessId) :
    (begunText pid ++ "\n").toList.head? = some 'B' := by
  have hfirst : (toString "Background process ").toList.head? = some 'B' := by decide
  unfold begunText
  simp [String.toList_append, List.head?_append, hfirst]

theorem begun?_eq_none {text : String} (h : cut? text = none) : begun? text = none := by
  rw [begun?, h]
  rfl

theorem completed?_eq_none {text : String} (h : cut? text = none) : completed? text = none := by
  rw [completed?, h]
  rfl

end Job

/-- The words for a completion begin like no other line. -/
theorem Completion.head?_text (cause : Completion) :
    (cause.text ++ "\n").toList.head? = some 'e' ∨
      (cause.text ++ "\n").toList.head? = some 't' := by
  have hexited : (toString "exit value ").toList.head? = some 'e' := by decide
  have hkilled : (toString "terminated by signal ").toList.head? = some 't' := by decide
  unfold text
  cases cause <;> simp [String.toList_append, List.head?_append, hexited, hkilled]

/-- The words for a completion are not about a job. -/
theorem Completion.cut?_text (cause : Completion) : Job.cut? (cause.text ++ "\n") = none := by
  refine Job.cut?_eq_none ?_
  rcases cause.head?_text with h | h <;> rw [h] <;> decide

end Conch
