import Conch.CommandLine
import Conch.Proofs.Jobs.Sweep
import Conch.Proofs.Shell.Action

/-!
# The same shell on two hosts

Two hosts are alike up to a relation between their worlds if each service, used in worlds that are
related, gives the same answer and leaves worlds that are related (`Host.Alike`).  A shell cannot
tell such hosts apart: whatever it does on the one comes to the same as on the other, with the same
shell but for the world (`Simulates`).  This is proved action by action, up to a line
(`simulates_execute`) and a stream (`simulates_serve`).

The relation need not be an equality of anything.  It may forget a log, or the position in a file,
or it may hold only as long as nobody touches something.
-/

namespace Conch

variable {σ τ : Type}

/-! ## Services -/

section Services

variable (R : σ → τ → Prop)

/-- A change of one world is matched by a change of the other. -/
def Keeps (f : σ → σ) (g : τ → τ) : Prop :=
  ∀ {w v}, R w v → R (f w) (g v)

/-- The same is answered, and what becomes of the one world is matched by the other. -/
def Answers {α : Type} (f : σ → α × σ) (g : τ → α × τ) : Prop :=
  ∀ {w v}, R w v → (f w).1 = (g v).1 ∧ R (f w).2 (g v).2

/-- What comes of one world that may be refused a change, and what of the other. -/
inductive Matches : Except IoError σ → Except IoError τ → Prop where
  | ok {w : σ} {v : τ} (h : R w v) : Matches (.ok w) (.ok v)
  | error (reason : IoError) : Matches (.error reason) (.error reason)

/-- Each service of the one host is matched by the other.  Streams are another matter. -/
structure Host.Alike (H : Host σ) (K : Host τ) : Prop where
  print : ∀ text, Keeps R (H.print text) (K.print text)
  printError : ∀ text, Keeps R (H.printError text) (K.printError text)
  arrivals : Answers R H.arrivals K.arrivals
  fork : ∀ launch, Answers R (H.fork launch) (K.fork launch)
  wait : ∀ pid, Answers R (H.wait pid) (K.wait pid)
  poll : ∀ pid, Answers R (H.poll pid) (K.poll pid)
  terminate : ∀ pid, Answers R (H.terminate pid) (K.terminate pid)
  terminateGroup : Keeps R H.terminateGroup K.terminateGroup
  workingDirectory : ∀ {w v}, R w v → H.workingDirectory w = K.workingDirectory v
  home : ∀ {w v}, R w v → H.home w = K.home v
  changeDirectory : ∀ path {w v}, R w v →
    Matches R (H.changeDirectory path w) (K.changeDirectory path v)
  exportDirectories : ∀ previous current,
    Keeps R (H.exportDirectories previous current) (K.exportDirectories previous current)

/-- The one stream is matched by the other. -/
structure InputStream.Alike (input : InputStream σ) (input' : InputStream τ) : Prop where
  answers : ∀ {w v}, R w v → input.answers w = input'.answers v
  advance : ∀ n, Keeps R (input.advance n) (input'.advance n)

end Services

namespace Shell

variable {α β : Type}

/-- The same shell in another world. -/
def moved (sh : Shell σ) (world : τ) : Shell τ where
  config := sh.config
  pid := sh.pid
  jobs := sh.jobs
  interpreter := sh.interpreter
  signals := sh.signals
  world

/-- The same result, with worlds that are related. -/
inductive SameResult (R : σ → τ → Prop) :
    EStateM.Result Stop (Shell σ) α → EStateM.Result Stop (Shell τ) α → Prop where
  | ok (a : α) {sh : Shell σ} {v : τ} (h : R sh.world v) :
      SameResult R (.ok a sh) (.ok a (sh.moved v))
  | error (stop : Stop) {sh : Shell σ} {v : τ} (h : R sh.world v) :
      SameResult R (.error stop sh) (.error stop (sh.moved v))

/-- Begun in worlds that are related, two actions come to the same. -/
def Simulates (R : σ → τ → Prop) (action : Act σ α) (action' : Act τ α) : Prop :=
  ∀ sh v, R sh.world v → SameResult R (action sh) (action' (sh.moved v))

variable {R : σ → τ → Prop}

section Results

variable {result : EStateM.Result Stop (Shell σ) α} {there : Shell τ}

/-- What comes to the same as a success is a success, with the same value, in a world that is
related. -/
theorem SameResult.of_ok {a : α} (h : SameResult R result (.ok a there)) :
    ∃ sh v, result = .ok a sh ∧ sh.moved v = there ∧ R sh.world v := by
  cases h with
  | ok a hrelated => exact ⟨_, _, rfl, rfl, hrelated⟩

/-- What comes to the same as a stop has stopped for the same reason, in a world that is related. -/
theorem SameResult.of_error {stop : Stop} (h : SameResult R result (.error stop there)) :
    ∃ sh v, result = .error stop sh ∧ sh.moved v = there ∧ R sh.world v := by
  cases h with
  | error stop hrelated => exact ⟨_, _, rfl, rfl, hrelated⟩

end Results

/-! ## How actions are put together -/

section Rules

theorem simulates_pure (a : α) : Simulates R (pure a) (pure a) :=
  fun _ _ h => .ok a h

theorem simulates_throw (stop : Stop) : Simulates R (throw stop : Act σ α) (throw stop) :=
  fun _ _ h => .error stop h

/-- Two changes of the shell come to the same if they leave shells that differ in their worlds only,
and related ones. -/
theorem simulates_modify {f : Shell σ → Shell σ} {g : Shell τ → Shell τ}
    (h : ∀ sh v, R sh.world v → ∃ v', R (f sh).world v' ∧ g (sh.moved v) = (f sh).moved v') :
    Simulates R (modify f) (modify g) := by
  intro sh v hrelated
  obtain ⟨v', hrelated', hsame⟩ := h sh v hrelated
  have hplain : (modify g : Act τ Unit) (sh.moved v) = .ok () ((f sh).moved v') :=
    congrArg (EStateM.Result.ok ()) hsame
  rw [hplain]
  exact .ok () hrelated'

/-- A change of the shell that does not concern the world, and is the same on both sides, comes to
the same. -/
theorem simulates_set {f : Shell σ → Shell σ} {g : Shell τ → Shell τ}
    (h : ∀ sh v, (f sh).world = sh.world ∧ g (sh.moved v) = (f sh).moved v) :
    Simulates R (modify f) (modify g) := by
  refine simulates_modify fun sh v hrelated => ⟨v, ?_, (h sh v).2⟩
  rwa [(h sh v).1]

theorem simulates_affect {f : σ → σ} {g : τ → τ} (h : Keeps R f g) :
    Simulates R (affect f) (affect g) :=
  simulates_modify fun _ v hrelated => ⟨g v, h hrelated, rfl⟩

theorem simulates_request {f : σ → α × σ} {g : τ → α × τ} (h : Answers R f g) :
    Simulates R (request f) (request g) := by
  intro sh v hrelated
  obtain ⟨hanswer, hafter⟩ := h hrelated
  have hplain : request g (sh.moved v) =
      .ok (g v).1 (({ sh with world := (f sh.world).2 } : Shell σ).moved (g v).2) := rfl
  rw [hplain, ← hanswer]
  exact .ok _ hafter

/-- **What is put together of actions that come to the same comes to the same.** -/
theorem simulates_bind {action : Act σ α} {action' : Act τ α} {rest : α → Act σ β}
    {rest' : α → Act τ β} (haction : Simulates R action action')
    (hrest : ∀ a, Simulates R (rest a) (rest' a)) :
    Simulates R (action >>= rest) (action' >>= rest') := by
  intro sh v hrelated
  have hfirst := haction sh v hrelated
  generalize hrun : action sh = result at hfirst
  generalize hrun' : action' (sh.moved v) = result' at hfirst
  cases hfirst with
  | ok a hmid =>
      rw [bind_of_ok hrun, bind_of_ok hrun']
      exact hrest a _ _ hmid
  | error stop hmid =>
      rw [bind_of_error hrun, bind_of_error hrun']
      exact .error stop hmid

/-- Looking at the shell, both actions see the same but for the world. -/
theorem simulates_get {rest : Shell σ → Act σ β} {rest' : Shell τ → Act τ β}
    (h : ∀ sh v, R sh.world v → Simulates R (rest sh) (rest' (sh.moved v))) :
    Simulates R (get >>= rest) (get >>= rest') :=
  fun sh v hrelated => h sh v hrelated sh v hrelated

theorem simulates_forM {items : List α} {action : α → Act σ PUnit} {action' : α → Act τ PUnit}
    (h : ∀ item, Simulates R (action item) (action' item)) :
    Simulates R (items.forM action) (items.forM action') := by
  induction items with
  | nil => exact simulates_pure _
  | cons item items ih => exact simulates_bind (h item) fun _ => ih

/-- To mend failures comes to the same if the actions do, and what is done about each failure. -/
theorem simulates_tryCatch {action : Act σ α} {action' : Act τ α} {handler : Stop → Act σ α}
    {handler' : Stop → Act τ α} (haction : Simulates R action action')
    (hhandler : ∀ stop, Simulates R (handler stop) (handler' stop)) :
    Simulates R (tryCatch action handler) (tryCatch action' handler') := by
  intro sh v hrelated
  have hfirst := haction sh v hrelated
  generalize hrun : action sh = result at hfirst
  generalize hrun' : action' (sh.moved v) = result' at hfirst
  cases hfirst with
  | ok a hmid =>
      rw [tryCatch_of_ok hrun, tryCatch_of_ok hrun']
      exact .ok a hmid
  | error stop hmid =>
      rw [tryCatch_of_error hrun, tryCatch_of_error hrun']
      exact hhandler stop _ _ hmid

theorem simulates_ite {p : Prop} [Decidable p] {action other : Act σ α}
    {action' other' : Act τ α} (h : Simulates R action action') (h' : Simulates R other other') :
    Simulates R (if p then action else other) (if p then action' else other') := by
  split
  · exact h
  · exact h'

end Rules

/-! ## What a shell does -/

variable {H : Host σ} {K : Host τ} (hosts : H.Alike R K)

section Signals

theorem simulates_times {action : Act σ Unit} {action' : Act τ Unit}
    (h : Simulates R action action') (n : Nat) :
    Simulates R (times action n) (times action' n) := by
  induction n with
  | zero => exact simulates_pure ()
  | succ n ih => exact simulates_bind h fun _ => ih

include hosts

theorem simulates_print (text : String) : Simulates R (print H text) (print K text) :=
  simulates_affect (hosts.print text)

theorem simulates_report (e : ShellError) : Simulates R (report H e) (report K e) :=
  simulates_affect (hosts.printError _)

/-- What becomes of the control signals is the same for both, since it does not depend on the world
but to announce a death. -/
theorem simulates_undergo (fate : Fate) : Simulates R (undergo H fate) (undergo K fate) := by
  cases fate with
  | alive signals => exact simulates_set fun _ _ => ⟨rfl, rfl⟩
  | killed signal announced =>
      cases announced with
      | true =>
          exact simulates_bind (simulates_print hosts _) fun _ =>
            simulates_bind (simulates_affect hosts.terminateGroup) fun _ => simulates_throw _
      | false => exact simulates_throw _

theorem simulates_adjust (f : SignalState → Fate) : Simulates R (adjust H f) (adjust K f) :=
  simulates_get fun _ _ _ => simulates_undergo hosts _

theorem simulates_receive (number : Int) : Simulates R (receive H number) (receive K number) := by
  unfold receive
  cases ControlSignal.ofNumber? number with
  | some signal => exact simulates_adjust hosts _
  | none => exact simulates_ite (simulates_pure ()) (simulates_throw _)

/-- To take in signals comes to the same, since the same ones arrive. -/
theorem simulates_takeSignals : Simulates R (takeSignals H) (takeSignals K) :=
  simulates_bind (simulates_request hosts.arrivals) fun _ =>
    simulates_forM (simulates_receive hosts)

theorem simulates_pollSignals : Simulates R (pollSignals H) (pollSignals K) := by
  have htoggle : Simulates R (toggleMode H) (toggleMode K) :=
    simulates_get fun _ _ _ => simulates_bind (simulates_set fun _ _ => ⟨rfl, rfl⟩) fun _ =>
      simulates_print hosts _
  exact simulates_get fun _ _ _ => simulates_bind (simulates_set fun _ _ => ⟨rfl, rfl⟩) fun _ =>
    simulates_times htoggle _

/-- What comes to the same does so under a guard. -/
theorem simulates_guarded {action : Act σ α} {action' : Act τ α}
    (h : Simulates R action action') : Simulates R (guarded H action) (guarded K action') := by
  refine simulates_get fun sh v _ => ?_
  refine simulates_bind (simulates_set fun _ _ => ⟨rfl, rfl⟩) fun _ => ?_
  refine simulates_bind (simulates_takeSignals hosts) fun _ => ?_
  refine simulates_bind h fun a => ?_
  refine simulates_bind (simulates_takeSignals hosts) fun _ => ?_
  refine simulates_bind (simulates_adjust hosts _) fun _ => ?_
  exact simulates_pure a

end Signals

section Jobs

include hosts

/-- A sweep finds the same in related worlds: the same answers come in, and the worlds stay
related. -/
theorem sweepJobs_alike (jobs : List Job) {w : σ} {v : τ} (hrelated : R w v) :
    let sweep := JobTable.sweepJobs H.poll jobs w
    let sweep' := JobTable.sweepJobs K.poll jobs v
    sweep.completed = sweep'.completed ∧ sweep.remaining = sweep'.remaining ∧
      R sweep.world sweep'.world := by
  induction jobs generalizing w v with
  | nil => exact ⟨rfl, rfl, hrelated⟩
  | cons job jobs ih =>
      obtain ⟨hanswer, hafter⟩ := hosts.poll job.pid hrelated
      obtain ⟨hcompleted, hremaining, hlast⟩ := ih hafter
      simp only [JobTable.sweepJobs_cons, hanswer]
      cases (K.poll job.pid v).1.verdict with
      | completed cause => exact ⟨congrArg _ hcompleted, hremaining, hlast⟩
      | dropped => exact ⟨hcompleted, hremaining, hlast⟩
      | kept => exact ⟨hcompleted, congrArg _ hremaining, hlast⟩

theorem simulates_notify : Simulates R (notify H) (notify K) := by
  refine simulates_get fun sh v hrelated => ?_
  obtain ⟨hcompleted, hremaining, hafter⟩ := sweepJobs_alike hosts sh.jobs.jobs hrelated
  have hjobs : (sh.moved v).jobs = sh.jobs := rfl
  have hworld : (sh.moved v).world = v := rfl
  simp only [JobTable.sweep, hjobs, hworld, hcompleted, hremaining]
  refine simulates_bind (simulates_modify fun _ _ _ => ⟨_, hafter, rfl⟩) fun _ => ?_
  exact simulates_forM fun _ => simulates_print hosts _

/-- The creation of a process comes to the same: the same process is asked for, and the answer is
the same. -/
theorem simulates_create (command : Command) :
    Simulates R (create H command) (create K command) := by
  apply simulates_guarded hosts
  refine simulates_bind (simulates_set fun _ _ => ⟨rfl, rfl⟩) fun _ => ?_
  refine simulates_bind (simulates_takeSignals hosts) fun _ => ?_
  refine simulates_get fun sh _ _ => ?_
  refine simulates_bind (simulates_request (hosts.fork _)) fun pid => ?_
  refine simulates_bind (simulates_takeSignals hosts) fun _ => ?_
  refine simulates_bind (simulates_set fun _ _ => ⟨rfl, rfl⟩) fun _ => ?_
  exact simulates_pure pid

theorem simulates_waitFor (pid : ProcessId) : Simulates R (waitFor H pid) (waitFor K pid) := by
  refine simulates_bind (simulates_guarded hosts (simulates_request (hosts.wait pid)))
    fun answers => ?_
  rcases conclusion? answers with _ | errno | cause
  · exact simulates_throw _
  · exact simulates_throw _
  · refine simulates_bind (simulates_set fun _ _ => ⟨rfl, rfl⟩) fun _ => ?_
    cases cause with
    | exited code => exact simulates_pure ()
    | killed signal => exact simulates_print hosts _

theorem simulates_track (pid : ProcessId) : Simulates R (track H pid) (track K pid) := by
  refine simulates_bind (simulates_print hosts _) fun _ => simulates_get fun sh v _ => ?_
  have hjobs : (sh.moved v).jobs = sh.jobs := rfl
  rw [hjobs]
  rcases sh.jobs.register? pid with _ | jobs
  · exact simulates_get fun _ _ _ => simulates_throw _
  · exact simulates_set fun _ _ => ⟨rfl, rfl⟩

/-- A launch comes to the same on both hosts, whether it is turned down, runs in the background, or
is waited for. -/
theorem simulates_launch (command : Command) :
    Simulates R (launch H command) (launch K command) := by
  refine simulates_get fun sh v _ => ?_
  refine simulates_ite (simulates_bind (simulates_throw _) fun _ => ?_) ?_ <;>
  · rcases unfitWord? command.argv with _ | word
    · refine simulates_bind (simulates_create hosts command) fun created => ?_
      rcases created with _ | pid
      · exact simulates_throw _
      · exact simulates_ite
          (simulates_bind (simulates_track hosts pid) fun _ => simulates_notify hosts)
          (simulates_bind (simulates_waitFor hosts pid) fun _ => simulates_notify hosts)
    · exact simulates_throw _

end Jobs

section Lines

include hosts

theorem simulates_leave (code : Option Int) :
    Simulates R (leave H code : Act σ α) (leave K code) := by
  refine simulates_get fun sh v _ => simulates_bind ?_ fun _ => ?_
  · refine simulates_forM fun pid => ?_
    exact simulates_bind (simulates_request (hosts.terminate pid)) fun _ => simulates_pure _
  · exact simulates_get fun _ _ _ => simulates_throw _

theorem simulates_runChangeDirectory (arguments : List Word) :
    Simulates R (runChangeDirectory H arguments) (runChangeDirectory K arguments) := by
  refine simulates_ite (simulates_bind (simulates_throw _) fun _ => ?_) ?_ <;>
  · rcases Builtin.directoryUsage.fit arguments with fault | matched
    · exact simulates_throw _
    · refine simulates_get fun sh v hrelated => ?_
      have hworld : (sh.moved v).world = v := rfl
      simp only [hworld, hosts.workingDirectory hrelated, hosts.home hrelated]
      cases K.workingDirectory v with
      | error reason => exact simulates_throw _
      | ok here =>
          dsimp only
          cases directoryTarget (matched.positional? "<dir>") here (K.home v) with
          | none => exact simulates_throw _
          | some target =>
              have hmoves := hosts.changeDirectory target hrelated
              dsimp only
              generalize H.changeDirectory target sh.world = there at hmoves
              generalize K.changeDirectory target v = there' at hmoves
              cases hmoves with
              | error reason => exact simulates_throw _
              | ok hafter =>
                  exact simulates_modify fun _ _ _ =>
                    ⟨_, hosts.exportDirectories here target hafter, rfl⟩

theorem simulates_runBuiltin (builtin : Builtin) (arguments : List Word) :
    Simulates R (runBuiltin H builtin arguments) (runBuiltin K builtin arguments) := by
  cases builtin with
  | changeDirectory =>
      exact simulates_bind (simulates_runChangeDirectory hosts arguments) fun _ => simulates_pure _
  | exit => exact simulates_leave hosts _
  | status => exact simulates_get fun _ _ _ => simulates_pure _

/-- A command comes to the same on both hosts, be it one of the shell's own or a program. -/
theorem simulates_run (command : Command) : Simulates R (run H command) (run K command) := by
  unfold run
  rcases Builtin.ofName? command.program with _ | builtin
  · exact simulates_launch hosts command
  · exact simulates_bind (simulates_runBuiltin hosts builtin _) fun _ => simulates_print hosts _

/-- **The same comes of a line** on two hosts that serve alike, in worlds that are related. -/
theorem simulates_execute (line : Text) : Simulates R (execute H line) (execute K line) := by
  refine simulates_get fun sh v _ => ?_
  have hpid : (sh.moved v).pid = sh.pid := rfl
  have hinterpreter : (sh.moved v).interpreter = sh.interpreter := rfl
  rw [hpid, hinterpreter]
  rcases Command.parse line sh.pid (!sh.interpreter.foregroundOnly) with fault | _ | command
  · exact simulates_throw _
  · exact simulates_pure _
  · exact simulates_run hosts command

theorem simulates_reporting {action : Act σ Unit} {action' : Act τ Unit}
    (h : Simulates R action action') : Simulates R (reporting H action) (reporting K action') := by
  refine simulates_tryCatch h fun stop => ?_
  cases stop with
  | failed e => exact simulates_ite (simulates_report hosts e) (simulates_throw _)
  | ended ending => exact simulates_throw _

theorem simulates_prepare (prompt : Option String) :
    Simulates R (prepare H prompt) (prepare K prompt) := by
  refine simulates_bind (simulates_takeSignals hosts) fun _ => ?_
  refine simulates_bind (simulates_pollSignals hosts) fun _ => ?_
  refine simulates_bind (simulates_set fun _ _ => ⟨rfl, rfl⟩) fun _ => ?_
  refine simulates_bind (simulates_notify hosts) fun _ => ?_
  rcases prompt with _ | text
  · exact simulates_takeSignals hosts
  · exact simulates_bind (simulates_print hosts text) fun _ => simulates_takeSignals hosts

end Lines

section Streams

variable {input : InputStream σ} {input' : InputStream τ} (inputs : input.Alike R input')

include inputs

theorem simulates_readLine (reader : LineReader) :
    Simulates R (readLine input reader) (readLine input' reader) := by
  refine simulates_get fun sh v hrelated => ?_
  have hworld : (sh.moved v).world = v := rfl
  simp only [hworld, inputs.answers hrelated]
  exact simulates_bind (simulates_affect (inputs.advance _)) fun _ => simulates_pure _

include hosts

/-- **The same comes of a stream**, if the same comes of each line. -/
theorem simulates_serve {perform : Text → Act σ Unit} {perform' : Text → Act τ Unit}
    (hperform : ∀ line, Simulates R (perform line) (perform' line)) (prompt : Option String)
    (fuel : Nat) (reader : LineReader) :
    Simulates R (serve H input prompt perform fuel reader)
      (serve K input' prompt perform' fuel reader) := by
  induction fuel generalizing reader with
  | zero => exact simulates_throw _
  | succ fuel ih =>
      rw [serve_succ, serve_succ]
      refine simulates_bind ?_ fun read => ?_
      · refine simulates_bind (simulates_prepare hosts prompt) fun _ => ?_
        refine simulates_bind (simulates_readLine inputs reader) fun read => ?_
        refine simulates_bind (simulates_takeSignals hosts) fun _ => ?_
        exact simulates_pure read
      · obtain ⟨outcome, reader'⟩ := read
        cases outcome with
        | failed errno => exact simulates_throw _
        | endOfInput => exact simulates_pollSignals hosts
        | interrupted =>
            refine simulates_bind (simulates_pollSignals hosts) fun _ =>
              simulates_get fun _ _ _ => ?_
            exact simulates_ite (simulates_bind (simulates_print hosts _) fun _ => ih reader')
              (ih reader')
        | line text =>
            refine simulates_bind (simulates_pollSignals hosts) fun _ => ?_
            refine simulates_bind (simulates_reporting hosts (hperform text)) fun _ => ?_
            exact ih reader'

end Streams

end Shell

end Conch
