import Conch.Machine.Host
import Mathlib.Logic.Relation

/-!
# What processes do to each other

Whatever happens on a machine, a process is mostly left alone.  It is sent signals, it may be
doomed, its parent and its children come and go; but nobody else decides what it does next, or what
signals do to it (`Process.Bears`).  This is true of every step of every other process
(`spares_step`), and of the requests with which a process opens and arranges its descriptors
(`Request.isArrangement`) it is true of the process itself.
-/

namespace Conch

/-! ## Signals -/

namespace Reception

/-- What a signal does to the process once it gets there. -/
def disposition (r : Reception) (signal : Nat) : Disposition :=
  if r.ignored.contains signal then .ignore
  else if r.heeded.contains signal then .handler
  else .default

/-- The same signals are ignored, heeded and blocked. -/
structure Agrees (r r' : Reception) : Prop where
  ignored : r'.ignored = r.ignored
  heeded : r'.heeded = r.heeded
  blocked : r'.blocked = r.blocked

variable {r r' r'' : Reception}

@[refl] theorem Agrees.refl (r : Reception) : Agrees r r :=
  ⟨rfl, rfl, rfl⟩

theorem Agrees.trans (h : Agrees r r') (h' : Agrees r' r'') : Agrees r r'' :=
  ⟨h'.ignored.trans h.ignored, h'.heeded.trans h.heeded, h'.blocked.trans h.blocked⟩

/-- A signal that a process survives does not change which signals it ignores, heeds or blocks. -/
theorem agrees_deliver {signal : Nat} (h : r.deliver signal = .survived r') : Agrees r r' := by
  unfold deliver at h
  split at h
  · cases h; rfl
  split at h
  · cases h; exact ⟨rfl, rfl, rfl⟩
  split at h
  · cases h; rfl
  · exact nomatch h

/-- Any number of signals, if the process survives them all, change no more than one does. -/
theorem agrees_deliverAll {signals : List Nat} (h : r.deliverAll signals = .survived r') :
    Agrees r r' := by
  induction signals generalizing r with
  | nil => cases h; rfl
  | cons signal rest ih =>
      rw [deliverAll] at h
      cases hfirst : r.deliver signal with
      | fatal killer =>
          rw [hfirst] at h
          exact nomatch h
      | survived mid =>
          rw [hfirst] at h
          exact (agrees_deliver hfirst).trans (ih h)

/-- Letting go the signals that wait, if the process survives them, changes nothing but what waits
and what was noted. -/
theorem agrees_releaseAll (h : r.releaseAll = .survived r') : Agrees r r' := by
  have hwaiting := agrees_deliverAll h
  exact ⟨hwaiting.ignored, hwaiting.heeded, hwaiting.blocked⟩

/-- A signal that is sent and survived, or comes to wait, does not change which signals a process
ignores, heeds or blocks. -/
theorem agrees_send {signal : Nat} (h : r.send signal = .survived r') : Agrees r r' := by
  unfold send at h
  split at h
  · cases h; rfl
  split at h
  · exact nomatch h
  split at h
  · cases h; exact ⟨rfl, rfl, rfl⟩
  split at h
  · cases h; rfl
  dsimp only at h
  split at h
  · have hfreed := agrees_releaseAll h
    exact ⟨hfreed.ignored, hfreed.heeded, hfreed.blocked⟩
  split at h
  · cases h; exact ⟨rfl, rfl, rfl⟩
  · have hfreed := agrees_releaseAll h
    exact ⟨hfreed.ignored, hfreed.heeded, hfreed.blocked⟩

/-- Once its signals are let through a process blocks none. -/
theorem agrees_unblock (h : r.unblock = .survived r') :
    Agrees { r with blocked := [] } r' :=
  agrees_releaseAll h

end Reception

/-! ## Processes -/

/-- What a process may have to bear: it is doomed or not, but nobody else says what it does or what
signals do to it. -/
structure Process.Bears (p p' : Process) : Prop where
  pid : p'.pid = p.pid
  routine : p'.routine = p.routine
  reception : p.reception.Agrees p'.reception
  doomed : p.doom.isSome → p'.doom.isSome

namespace Process

variable {p p' p'' : Process}

@[refl] theorem Bears.refl (p : Process) : Bears p p :=
  ⟨rfl, rfl, .refl _, id⟩

theorem Bears.trans (h : Bears p p') (h' : Bears p' p'') : Bears p p'' :=
  ⟨h'.pid.trans h.pid, h'.routine.trans h.routine, h.reception.trans h'.reception,
    fun hdoom => h'.doomed (h.doomed hdoom)⟩

/-- A process that is told of the end of a child has changed in its children only. -/
theorem bears_tellEnd (p : Process) (child : ProcessId) (cause : Completion) :
    Bears p (p.tellEnd child cause) := by
  unfold tellEnd
  dsimp only
  split
  · next hsent => exact ⟨rfl, rfl, Reception.agrees_send hsent, id⟩
  · exact ⟨rfl, rfl, .refl _, id⟩

end Process

/-- A request with which a process opens and arranges its descriptors. -/
def Request.isArrangement : Request → Bool
  | openFile .. | awaitPartner .. | duplicate .. | close .. | write .. => true
  | _ => false

namespace Machine

variable {m m' m'' : Machine} {pid : ProcessId} {p p' q : Process}

/-- Whatever has become of the machine, the process goes on from where it was. -/
def Spares (pid : ProcessId) (m m' : Machine) : Prop :=
  ∀ p, m.process? pid = some p → ∃ p', m'.process? pid = some p' ∧ p.Bears p'

/-- Where no process has changed, all of them are spared, whatever else has happened to the
machine. -/
theorem spares_of_running (h : m'.running = m.running) : Spares pid m m' := by
  intro p hp
  refine ⟨p, ?_, .refl p⟩
  rw [process?, h]
  exact hp

theorem Spares.refl (m : Machine) : Spares pid m m :=
  spares_of_running rfl

theorem Spares.trans (h : Spares pid m m') (h' : Spares pid m' m'') : Spares pid m m'' := by
  intro p hp
  obtain ⟨p', hp', hbears⟩ := h p hp
  obtain ⟨p'', hp'', hbears'⟩ := h' p' hp'
  exact ⟨p'', hp'', hbears.trans hbears'⟩

theorem pid_of_process? (h : m.process? pid = some p) : p.pid = pid := by
  have hfound := List.find?_some h
  exact eq_of_beq hfound

theorem process?_pid (h : m.process? pid = some p) : m.process? p.pid = some p := by
  rwa [pid_of_process? h]

/-- A change that lets all processes keep their ids lets them be found as before, each as it has
been changed. -/
theorem find?_map {f : Process → Process} (hpid : ∀ q, (f q).pid = q.pid) (running : List Process) :
    (running.map f).find? (fun q => q.pid == pid) =
      (running.find? fun q => q.pid == pid).map f := by
  rw [List.find?_map]
  simp only [Function.comp_def, hpid]

/-- When a process is put back, those with its number become it, and the others are found as
before. -/
theorem process?_setProcess :
    (m.setProcess q).process? pid =
      (m.process? pid).map fun p => if p.pid = q.pid then q else p := by
  refine find?_map (fun p => ?_) m.running
  split
  · next h => exact h.symm
  · rfl

/-- When a process is given something else to do, nothing but this changes, and for no other
process. -/
theorem process?_resume (routine : Routine) :
    (m.resume q.pid routine).process? pid =
      (m.process? pid).map fun p => if p.pid = q.pid then { p with routine } else p := by
  refine find?_map (fun p => ?_) m.running
  split <;> rfl

/-- A process that was there is found as it has been put back. -/
theorem process?_setProcess_of (hthere : m.process? p.pid = some p) (hpid : p'.pid = p.pid) :
    (m.setProcess p').process? p.pid = some p' := by
  rw [process?_setProcess, hthere, Option.map_some, if_pos hpid.symm]

/-- A process that was there is found with what it has been given to do. -/
theorem process?_resume_of {routine : Routine} (hthere : m.process? p.pid = some p')
    (hpid : p'.pid = p.pid) :
    (m.resume p.pid routine).process? p.pid = some { p' with routine } := by
  rw [process?_resume, hthere, Option.map_some, if_pos hpid]

/-- A process is changed in a way that it may have to bear, or another one is. -/
theorem spares_setProcess (h : ∀ p, m.process? pid = some p → p.pid = q.pid → p.Bears q) :
    Spares pid m (m.setProcess q) := by
  intro p hp
  refine ⟨if p.pid = q.pid then q else p, ?_, ?_⟩
  · rw [process?_setProcess, hp]
    rfl
  · split
    · next hsame => exact h p hp hsame
    · exact .refl p

/-- The same, for what becomes of a process that is known. -/
theorem spares_setProcess_of (hthere : m.process? p.pid = some p) (hpid : p'.pid = p.pid)
    (h : pid ≠ p.pid ∨ p.Bears p') : Spares pid m (m.setProcess p') := by
  refine spares_setProcess fun q hq hsame => ?_
  have hid : pid = p.pid := (pid_of_process? hq).symm.trans (hsame.trans hpid)
  subst hid
  obtain rfl : p = q := Option.some.inj (hthere.symm.trans hq)
  exact h.resolve_left fun hne => hne rfl

/-- What a signal does to a process spares the others, and it spares the process itself if it
survives. -/
theorem spares_undergo (hthere : m.process? p.pid = some p) {impact : Impact}
    (h : pid ≠ p.pid ∨ ∀ r, impact = .survived r → p.reception.Agrees r) :
    Spares pid m (m.undergo p impact) := by
  cases impact with
  | survived r =>
      refine spares_setProcess_of hthere rfl (h.imp_right fun hagrees => ?_)
      exact ⟨rfl, rfl, hagrees r rfl, id⟩
  | fatal signal =>
      refine spares_setProcess_of hthere rfl (.inr ⟨rfl, rfl, .refl _, fun hdoom => ?_⟩)
      rw [Option.isSome_or, hdoom, Bool.true_or]

/-- A signal that is sent to a process spares all those that survive it, and everybody else. -/
theorem spares_sendTo (hthere : m.process? p.pid = some p) (signal : Nat) :
    Spares pid m (m.sendTo p signal) :=
  spares_undergo hthere (.inr fun _ => Reception.agrees_send)

/-- A signal that is sent to the shell spares the processes. -/
theorem spares_sendShell (signal : Int) : Spares pid m (m.sendShell signal) := by
  unfold sendShell
  split
  · exact .refl m
  split <;> exact spares_of_running rfl

/-- A signal to all processes spares each one that survives it. -/
theorem spares_sendAll (signal : Nat) : Spares pid m (m.sendAll signal) := by
  have hshell : Spares pid m (m.sendShell signal) := spares_sendShell _
  unfold sendAll
  dsimp only
  refine hshell.trans ?_
  generalize m.sendShell signal = start
  generalize start.running.map Process.pid = pids
  induction pids generalizing start with
  | nil => exact .refl start
  | cons next pids ih =>
      rw [List.foldl_cons]
      refine Spares.trans ?_ (ih _)
      cases hnext : start.process? next with
      | none => exact .refl start
      | some p => exact spares_sendTo (process?_pid hnext) signal

/-- Whoever a signal is sent to, a process that survives it is spared. -/
theorem spares_send (target : Int) (signal : Nat) : Spares pid m (m.send target signal).2 := by
  unfold send
  dsimp only
  split
  · exact spares_sendAll signal
  split
  · exact .refl m
  split
  · exact spares_sendShell signal
  split
  · next hp => exact spares_sendTo (process?_pid hp) signal
  · exact .refl m

/-- When another process is gone, and those that are left only bear something, a process is
spared. -/
theorem spares_of_map {gone : ProcessId} {f : Process → Process} (hother : pid ≠ gone)
    (hbears : ∀ q : Process, q.Bears (f q))
    (hrunning : m'.running = (m.running.filter fun q => q.pid != gone).map f) :
    Spares pid m m' := by
  intro q hq
  have hkept : (m.running.filter fun q => q.pid != gone).find? (fun q => q.pid == pid) =
      m.process? pid := by
    rw [List.find?_filter, process?]
    congr 1
    funext q
    by_cases h : q.pid = pid
    · simp [h, hother]
    · simp [h]
  refine ⟨f q, ?_, hbears q⟩
  rw [process?, hrunning, find?_map fun q => (hbears q).pid, hkept, hq]
  rfl

/-- Somebody else ends.  His children are taken over, and his parent is told. -/
theorem spares_retire (hother : pid ≠ p.pid) (cause : Completion) :
    Spares pid m (m.retire p cause) := by
  have horphaned : ∀ q : Process,
      q.Bears (if q.parent = p.pid then { q with parent := caretaker } else q) := by
    intro q
    split
    · exact ⟨rfl, rfl, .refl _, id⟩
    · exact .refl q
  have htold : ∀ q : Process,
      q.Bears (if q.pid = p.parent then q.tellEnd p.pid cause else q) := by
    intro q
    split
    · exact q.bears_tellEnd _ _
    · exact .refl q
  exact spares_of_map hother (fun q => (horphaned q).trans (htold _)) List.map_map

/-- A process that comes into being spares those that were there before. -/
theorem spares_of_append (h : m'.running = m.running ++ [p]) : Spares pid m m' := by
  intro q hq
  refine ⟨q, ?_, .refl q⟩
  have hfound : m.running.find? (fun q => q.pid == pid) = some q := hq
  rw [process?, h, List.find?_append, hfound]
  rfl

/-! ## Requests -/

/-- However a request is answered, if it is, the process goes on from where it was. -/
def Yields {α : Type} (pid : ProcessId) (m : Machine) (result : Option (α × Machine)) : Prop :=
  ∀ answer ∈ result, Spares pid m answer.2

section Yields

variable {α : Type} {answer : α}

theorem yields_none : Yields pid m (none : Option (α × Machine)) :=
  fun _ h => nomatch h

theorem yields_some (h : Spares pid m m') : Yields pid m (some (answer, m')) := by
  rintro _ ⟨⟩
  exact h

/-- To be broken off by a signal that was noted down spares everybody. -/
theorem yields_unlessNoted (p : Process) :
    Yields pid m (unlessNoted p (answer, m)) := by
  unfold unlessNoted
  split
  · exact yields_none
  · exact yields_some (.refl m)

end Yields

/-- To move the position of an opening spares the processes. -/
theorem spares_moveTo (index offset : Nat) : Spares pid m (m.moveTo index offset) := by
  unfold moveTo
  split <;> exact spares_of_running rfl

/-- To put back a process that has changed spares the others, and itself if it only bore
something. -/
theorem spares_replace (hthere : m.process? p.pid = some p) (hrunning : m'.running = m.running)
    (hpid : p'.pid = p.pid) (h : pid ≠ p.pid ∨ p.Bears p') : Spares pid m (m'.setProcess p') := by
  have hthere' : m'.process? p.pid = some p := by rwa [process?, hrunning]
  exact (spares_of_running hrunning).trans (spares_setProcess_of hthere' hpid h)

/-- To give a process one more descriptor is no burden to anybody. -/
theorem spares_attach (hthere : m.process? p.pid = some p) (hrunning : m'.running = m.running)
    (descriptor : Descriptor) : Spares pid m (m'.setProcess (p.attach descriptor)) :=
  spares_replace hthere hrunning rfl (.inr ⟨rfl, rfl, .refl _, id⟩)

/-- To open a file changes no process but the one that opens it. -/
theorem spares_openFile (hthere : m.process? p.pid = some p) (path : Text) (access : Access)
    (mode : Nat) : Spares pid m (m.openFile p path access mode).2 := by
  unfold openFile
  split
  · exact .refl m
  dsimp only
  split
  · exact spares_of_running rfl
  · next endpoint _ =>
      refine spares_attach hthere ?_ _
      cases endpoint with
      | file file =>
          dsimp only
          split
          · rfl
          dsimp only
          split <;> rfl
      | feed => rfl
      | output => rfl
      | errors => rfl

/-- To create a pipe changes no process but the one that gets its ends. -/
theorem spares_makePipe (hthere : m.process? p.pid = some p) (hother : pid ≠ p.pid) :
    Spares pid m (m.makePipe p).2 :=
  spares_replace hthere rfl rfl (.inl hother)

/-- To duplicate a descriptor changes no process but the one that has it. -/
theorem spares_duplicate (hthere : m.process? p.pid = some p) (descriptor : Nat)
    (target : Option Nat) : Spares pid m (m.duplicate p descriptor target).2 := by
  unfold duplicate
  split
  · exact .refl m
  · exact spares_attach hthere rfl _

/-- To read a pipe, or to wait for it, changes no other process. -/
theorem yields_readPipe (file : FileId) (limit : Nat) :
    Yields pid m (m.readPipe p file limit) := by
  unfold readPipe
  dsimp only
  split
  · split
    · exact yields_unlessNoted p
    · exact yields_some (.refl m)
  · exact yields_some (spares_of_running rfl)

/-- To read the standard input of the shell may bring in signals from outside, but these are for the
shell. -/
theorem yields_readFeed (limit : Nat) : Yields pid m (m.readFeed p limit) := by
  unfold readFeed
  dsimp only
  split
  · exact yields_unlessNoted p
  · exact yields_some (spares_of_running rfl)

/-- To read whatever a descriptor refers to changes no other process. -/
theorem yields_readBytes (descriptor limit : Nat) :
    Yields pid m (m.readBytes p descriptor limit) := by
  unfold readBytes
  split
  · exact yields_some (.refl m)
  split
  · exact yields_readFeed limit
  · exact yields_some (.refl m)
  · exact yields_some (.refl m)
  split
  · exact yields_some (.refl m)
  · exact yields_readPipe _ limit
  · exact yields_some (.refl m)
  · exact yields_some (.refl m)
  · exact yields_some (spares_moveTo _ _)

/-- To write to a pipe may cost the writer its life if nobody reads, and no one else. -/
theorem yields_writePipe (hthere : m.process? p.pid = some p) (file : FileId)
    (bytes : List UInt8) : Yields pid m (m.writePipe p file bytes) := by
  unfold writePipe
  split
  · exact yields_some (spares_sendTo hthere _)
  split
  · exact yields_unlessNoted p
  · exact yields_some (spares_of_running rfl)

/-- To write to whatever a descriptor refers to changes no other process. -/
theorem yields_writeBytes (hthere : m.process? p.pid = some p) (descriptor : Nat)
    (bytes : List UInt8) : Yields pid m (m.writeBytes p descriptor bytes) := by
  unfold writeBytes
  split
  · exact yields_some (.refl m)
  split
  · exact yields_some (.refl m)
  · exact yields_some (spares_of_running rfl)
  · exact yields_some (spares_of_running rfl)
  split
  · exact yields_writePipe hthere _ bytes
  · exact yields_some (.refl m)
  · refine yields_some (Spares.trans ?_ (spares_moveTo _ _))
    exact spares_of_running rfl

/-- To give bytes back that were read changes no process. -/
theorem spares_giveBack (descriptor count : Nat) :
    Spares pid m (m.giveBack p descriptor count).2 := by
  unfold giveBack
  split
  · split
    · exact spares_moveTo _ _
    · exact .refl m
  · exact .refl m

/-- To wait for a child, and to collect it, changes no process but the one that waits. -/
theorem yields_waitForChild (hthere : m.process? p.pid = some p) (hother : pid ≠ p.pid)
    (child : Option ProcessId) (mode : WaitMode) :
    Yields pid m (m.waitForChild p child mode) := by
  unfold waitForChild
  split
  · exact yields_some (spares_setProcess_of hthere rfl (.inl hother))
  split
  · exact yields_some (.refl m)
  split
  · exact yields_some (.refl m)
  · exact yields_none
  · cases p.reception.noted.getLast? with
    | none => exact yields_none
    | some signal => exact yields_some (.refl m)

/-- **Requests concern who makes them**, and arranging one's descriptors changes nothing about what
one is about to do. -/
theorem yields_answer (hthere : m.process? p.pid = some p) (request : Request)
    (h : pid ≠ p.pid ∨ request.isArrangement = true) : Yields pid m (m.answer p request) := by
  cases request with
  | look => exact yields_some (.refl m)
  | change alter =>
      rw [answer]
      split
      · exact yields_some (spares_of_running rfl)
      · exact yields_some (.refl m)
  | enter directory =>
      exact yields_some (spares_setProcess_of hthere rfl (h.imp_right fun no => nomatch no))
  | setMask mask =>
      exact yields_some (spares_setProcess_of hthere rfl (h.imp_right fun no => nomatch no))
  | openFile path access mode => exact yields_some (spares_openFile hthere path access mode)
  | awaitPartner descriptor =>
      rw [answer]
      split
      · exact yields_some (.refl m)
      split
      · exact yields_some (.refl m)
      · exact yields_unlessNoted p
  | makePipe => exact yields_some (spares_makePipe hthere (h.resolve_right nofun))
  | duplicate descriptor target => exact yields_some (spares_duplicate hthere descriptor target)
  | close descriptor =>
      exact yields_some (spares_setProcess_of hthere rfl (.inr ⟨rfl, rfl, .refl _, id⟩))
  | read descriptor limit => exact yields_readBytes descriptor limit
  | write descriptor bytes => exact yields_writeBytes hthere descriptor bytes
  | giveBack descriptor count => exact yields_some (spares_giveBack descriptor count)
  | sleepUntil time =>
      rw [answer]
      split
      · exact yields_none
      · exact yields_some (.refl m)
  | become path words environment => exact yields_none
  | wait child mode => exact yields_waitForChild hthere (h.resolve_right nofun) child mode
  | kill target signal => exact yields_some (spares_send target signal)
  | setAction signal action =>
      exact yields_some (spares_setProcess_of hthere rfl (h.imp_right fun no => nomatch no))
  | unblock => exact yields_some (spares_undergo hthere (h.imp_right fun no => nomatch no))
  | takeNoted =>
      exact yields_some (spares_setProcess_of hthere rfl (h.imp_right fun no => nomatch no))

/-- To go on with something else to do changes no process but the one that goes on. -/
theorem spares_resume (hother : pid ≠ q.pid) (routine : Routine) :
    Spares pid m (m.resume q.pid routine) := by
  intro p hp
  refine ⟨p, ?_, .refl p⟩
  have hne : p.pid ≠ q.pid := by rwa [pid_of_process? hp]
  rw [process?_resume, hp, Option.map_some, if_neg hne]

/-- **A step of one process spares all others**: they may get signals and learn of the ends of
children, and no more. -/
theorem spares_step (hthere : m.process? p.pid = some p) (hother : pid ≠ p.pid)
    (hstep : m.step p = some m') : Spares pid m m' := by
  unfold step at hstep
  split at hstep
  · obtain rfl := Option.some.inj hstep
    exact spares_retire hother _
  · exact nomatch hstep
  · obtain rfl := Option.some.inj hstep
    exact spares_retire hother _
  · obtain rfl := Option.some.inj hstep
    refine Spares.trans ?_ (spares_resume hother _)
    have hparent : Spares pid m (m.setProcess
        { p with children := p.children.spawn ⟨Int32.ofInt m.nextPid⟩ }) :=
      spares_setProcess_of hthere rfl (.inl hother)
    exact hparent.trans (spares_of_append rfl)
  · split at hstep
    · obtain rfl := Option.some.inj hstep
      exact spares_setProcess_of hthere rfl (.inl hother)
    · obtain rfl := Option.some.inj hstep
      exact spares_resume hother _
  · next request _ _ _ _ _ =>
      cases hanswer : m.answer p request with
      | none =>
          rw [hanswer] at hstep
          exact nomatch hstep
      | some answered =>
          rw [hanswer] at hstep
          obtain rfl := Option.some.inj hstep
          have hyields := yields_answer hthere request (.inl hother) answered hanswer
          exact hyields.trans (spares_resume hother _)

end Machine

end Conch
