import Conch.Proofs.Shell.Outcome

/-!
# What all parts of an action have in common

An action is put together from parts, and many of its properties are properties of all the parts: a
property is `Compositional` if it is kept when actions are put together.  So it is enough to know of
a few elementary actions that they have it, and so has every launch (`has_launch`), and everything
that a shell does with a line (`has_execute`).

Each `Frame` gives two such properties.  An action may stay within the frame wherever it starts and
however it ends (`Frame.bounding`), or do so if the shell goes on after it (`Frame.leading`): while
the shell is being killed it need not restore anything.
-/

namespace Conch.Shell

variable {σ α β : Type}

/-- A property of actions that is kept when they are put together.  To do nothing and to stop are
never against it, one action may follow another, and the shell may be looked at. -/
structure Compositional (σ : Type) where
  Has : ∀ {α : Type}, Act σ α → Prop
  pure : ∀ {α : Type} (a : α), Has (pure a)
  throw : ∀ {α : Type} (stop : Stop), Has (throw stop : Act σ α)
  bind : ∀ {α β : Type} {action : Act σ α} {rest : α → Act σ β},
    Has action → (∀ a, Has (rest a)) → Has (action >>= rest)
  look : ∀ {β : Type} {rest : Shell σ → Act σ β}, (∀ sh, Has (rest sh)) → Has (get >>= rest)

namespace Frame

variable (frame : Frame σ)

/-- To stay within the frame. -/
def bounding : Compositional σ where
  Has action := frame.Bounds action
  pure := frame.bounds_pure
  throw := frame.bounds_throw
  bind := frame.bounds_bind
  look h := frame.bounds_get_bind fun sh => h sh sh

/-- Does an action stay within the frame if the shell goes on after it? -/
def Leads (action : Act σ α) : Prop :=
  ∀ sh sh', reached? (action sh) = some sh' → frame.Allows sh sh'

/-- To stay within the frame, unless the shell ends. -/
def leading : Compositional σ where
  Has action := frame.Leads action
  pure _ sh _ hreached := Option.some.inj hreached ▸ frame.refl sh
  throw stop sh _ hreached := by
    cases stop with
    | failed e => exact Option.some.inj hreached ▸ frame.refl sh
    | ended ending => exact nomatch hreached
  bind := by
    intro α β action rest haction hrest sh sh' hreached
    rcases hrun : action sh with ⟨a, mid⟩ | ⟨stop, mid⟩
    · rw [bind_of_ok hrun] at hreached
      have hfirst : reached? (action sh) = some mid := by rw [hrun]; rfl
      exact frame.trans (haction sh mid hfirst) (hrest a mid sh' hreached)
    · rw [bind_of_error hrun] at hreached
      have hfirst : reached? (action sh) = some sh' := by
        rw [hrun]
        cases stop <;> exact hreached
      exact haction sh sh' hfirst
  look h sh := h sh sh

variable {frame}

/-- What a frame bounds it leads, since the end of an action is one of the ways in which it may
stop. -/
theorem Bounds.leads {action : Act σ α} (h : frame.Bounds action) : frame.Leads action := by
  intro sh sh' hreached
  have hleft := h sh
  rwa [left_of_reached? hreached] at hleft

/-- An action that is not cut short but by a signal has come to its end if the shell goes on. -/
theorem leads_of_onlyKills {action : Act σ α} (hkills : OnlyKills action)
    (h : ∀ sh a sh', action sh = .ok a sh' → frame.Allows sh sh') : frame.Leads action := by
  intro sh sh' hreached
  rcases hrun : action sh with ⟨a, done⟩ | ⟨stop, done⟩
  · rw [hrun] at hreached
    obtain rfl := Option.some.inj hreached
    exact h sh a done hrun
  · rw [hrun] at hreached
    obtain ⟨number, rfl⟩ := hkills sh stop done hrun
    exact nomatch hreached

/-- The rest of an action only matters from where its first part may have come. -/
theorem allows_bind {action : Act σ α} {rest : α → Act σ β} {sh : Shell σ}
    (haction : frame.Allows sh (left (action sh)))
    (hrest : ∀ a mid, action sh = .ok a mid → frame.Allows mid (left (rest a mid))) :
    frame.Allows sh (left ((action >>= rest) sh)) := by
  rcases hrun : action sh with ⟨a, mid⟩ | ⟨stop, mid⟩
  · rw [hrun] at haction
    rw [bind_of_ok hrun]
    exact frame.trans haction (hrest a mid hrun)
  · rw [hrun] at haction
    rw [bind_of_error hrun]
    exact haction

end Frame

namespace Compositional

variable (property : Compositional σ)

theorem ite {p : Prop} [Decidable p] {action action' : Act σ α} (h : property.Has action)
    (h' : property.Has action') : property.Has (if p then action else action') := by
  split
  · exact h
  · exact h'

theorem forM {items : List α} {action : α → Act σ PUnit} (h : ∀ item, property.Has (action item)) :
    property.Has (items.forM action) := by
  induction items with
  | nil => exact property.pure _
  | cons item items ih => exact property.bind (h item) fun _ => ih

variable (H : Host σ)

variable {property H} in
/-- A guarded action has the properties that the action and its guard have. -/
theorem has_guarded {action : Act σ α}
    (hblock : property.Has (modify fun sh : Shell σ => { sh with signals := sh.signals.block }))
    (htake : property.Has (takeSignals H)) (hadjust : ∀ f, property.Has (adjust H f))
    (h : property.Has action) : property.Has (guarded H action) := by
  refine property.look fun sh => ?_
  refine property.bind hblock fun _ => property.bind htake fun _ => ?_
  exact property.bind h fun a => property.bind htake fun _ => property.bind (hadjust _) fun _ =>
    property.pure a

/-- What a shell does to run a program, besides creating a process and waiting for it. -/
structure Attends : Prop where
  print : ∀ text, property.Has (print H text)
  notify : property.Has (notify H)
  enter : ∀ jobs, property.Has (modify fun sh : Shell σ => { sh with jobs })
  remember : ∀ cause, property.Has (modify fun sh : Shell σ => { sh with
    interpreter := { sh.interpreter with status := sh.interpreter.status.record cause } })

variable {property H} (h : property.Attends H)

include h

/-- To track a process is to remember it, to announce it, and no more. -/
theorem has_track (pid : ProcessId) : property.Has (track H pid) := by
  refine property.bind (h.print _) fun _ => property.look fun sh => ?_
  cases sh.jobs.register? pid with
  | some jobs => exact h.enter jobs
  | none => exact property.look fun _ => property.throw _

/-- To wait for a program has a property if the bare waiting has it: what is done about the answer
is up to the shell alone. -/
theorem has_waitFor {pid : ProcessId} (hwait : property.Has (guarded H (request (H.wait pid)))) :
    property.Has (waitFor H pid) := by
  refine property.bind hwait fun answers => ?_
  rcases conclusion? answers with _ | errno | cause
  · exact property.throw _
  · exact property.throw _
  · refine property.bind (h.remember cause) fun _ => ?_
    cases cause with
    | exited code => exact property.pure ()
    | killed signal => exact h.print _

/-- **A launch has the properties that its parts have**: the creation of the process, and the
waiting for it, are all that has to be looked at. -/
theorem has_launch {command : Command} (hcreate : property.Has (create H command))
    (hwait : ∀ pid, property.Has (guarded H (request (H.wait pid)))) :
    property.Has (launch H command) := by
  refine property.look fun sh => ?_
  refine property.ite (property.bind (property.throw _) fun _ => ?_) ?_ <;>
  · cases unfitWord? command.argv with
    | some word => exact property.throw _
    | none =>
        refine property.bind hcreate fun created => ?_
        cases created with
        | none => exact property.throw _
        | some pid =>
            exact property.ite (property.bind (has_track h pid) fun _ => h.notify)
              (property.bind (has_waitFor h (hwait pid)) fun _ => h.notify)

omit h

variable (hservice : ∀ {β : Type} (f : σ → β × σ), property.Has (request f))

include hservice

/-- To leave has every such property, since it is the last thing that is done. -/
theorem has_leave (code : Option Int) : property.Has (leave H code : Act σ α) := by
  refine property.look fun sh => property.bind ?_ fun _ => property.look fun _ => property.throw _
  exact property.forM fun pid => property.bind (hservice _) fun _ => property.pure _

/-- To change the directory has a property if all does that this asks of the host. -/
theorem has_runChangeDirectory (arguments : List Word) :
    property.Has (runChangeDirectory H arguments) := by
  refine property.ite (property.bind (property.throw _) fun _ => ?_) ?_ <;>
  · rcases Builtin.directoryUsage.fit arguments with fault | matched
    · exact property.throw _
    · refine property.look fun sh => ?_
      dsimp only
      cases H.workingDirectory sh.world with
      | error reason => exact property.throw _
      | ok here =>
          dsimp only
          cases directoryTarget (matched.positional? "<dir>") here (H.home sh.world) with
          | none => exact property.throw _
          | some target =>
              dsimp only
              cases H.changeDirectory target sh.world with
              | error reason => exact property.throw _
              | ok world => exact hservice fun _ => ((), H.exportDirectories here target world)

/-- A builtin command has a property if all does that the shell does by itself. -/
theorem has_runBuiltin (builtin : Builtin) (arguments : List Word) :
    property.Has (runBuiltin H builtin arguments) := by
  cases builtin with
  | changeDirectory =>
      exact property.bind (has_runChangeDirectory hservice arguments) fun _ => property.pure _
  | exit => exact has_leave hservice _
  | status => exact property.look fun _ => property.pure _

/-- **Whatever a shell does with a line** has the properties that its launches and the use of
services have. -/
theorem has_execute (hlaunch : ∀ command, property.Has (launch H command)) (line : Text) :
    property.Has (execute H line) := by
  refine property.look fun sh => ?_
  rcases Command.parse line sh.pid (!sh.interpreter.foregroundOnly) with fault | _ | command
  · exact property.throw _
  · exact property.pure _
  · dsimp only
    unfold run
    cases Builtin.ofName? command.program with
    | none => exact hlaunch command
    | some builtin =>
        refine property.bind (has_runBuiltin hservice builtin _) fun text => ?_
        exact hservice fun world => ((), H.print text world)

end Compositional

end Conch.Shell
