import Conch.Script.Expansion

/-!
# Redirections of scripts

The words of all redirections of a clause are replaced first.  Then the redirections are made one
after the other, in the process of the script itself.
Before a descriptor is changed what it refers to is kept under a high number, so that the
script has its own descriptors back when the clause is done.  If one redirection fails those
before it are undone.
-/

namespace Conch.Script

open Running

/-- What a descriptor has to be given back: the number under which that is kept, or nothing if the
descriptor was free. -/
structure KeptDescriptor where
  descriptor : Nat
  kept : Option Nat
  deriving DecidableEq, Repr

/-- Why something that is to be run, or opened, is not there. -/
def missingText (missing : String) (reason : IoError) : Text :=
  match reason with
  | .system errno =>
    if errno = .noEntry || errno = .notDirectory then missing.toList else errno.message.toList
  | .nulInPath => reason.message.toList

/-- Keep what a descriptor refers to. -/
def keepDescriptor (descriptor : Nat) : Running KeptDescriptor := do
  match ← task (Task.ask (.duplicate descriptor none)) with
  | .ok kept => pure ⟨descriptor, some kept⟩
  | .error _ => pure ⟨descriptor, none⟩

/-- Give a descriptor back what it referred to. -/
def giveDescriptorBack (k : KeptDescriptor) : Running Unit := do
  match k.kept with
  | none => task (Task.ask (.close k.descriptor))
  | some kept =>
    let _ ← task (Task.ask (.duplicate kept (some k.descriptor)))
    task (Task.ask (.close kept))

/-- Let a descriptor refer to what has been opened under another one. -/
def moveDescriptor (opened descriptor : Nat) : Running KeptDescriptor := do
  if opened = descriptor then pure ⟨descriptor, none⟩
  else
    let kept ← keepDescriptor descriptor
    let _ ← task (Task.ask (.duplicate opened (some descriptor)))
    task (Task.ask (.close opened))
    pure kept

/-- Open a file for a redirection. -/
def openTarget (path : Text) (access : Access) : Running Nat := do
  match ← task (Task.openFile path access Task.usualMode) with
  | .ok opened => pure opened
  | .error reason =>
    if access = .read then
      fail ("cannot open ".toList ++ path ++ ": ".toList ++ missingText "No such file" reason)
    else
      fail ("cannot create ".toList ++ path ++ ": ".toList ++
        missingText "Directory nonexistent" reason)

/-- How a file is opened that must not be overwritten unless it is a device or a pipe. -/
def careful (path : Text) : Running Access := do
  match (← look).find path with
  | .error _ => pure .create
  | .ok node => pure (if node.isRegular then .create else .write)

/-- What a redirection comes to when its words have been replaced: a file that is opened, a file
that is created unless the path leads to a device or a pipe, the same as another descriptor,
nothing, or a text of the script. -/
inductive Target where
  | file (path : Text) (access : Access)
  | fresh (path : Text)
  | same (source : Nat)
  | nothing
  | document (template : Template)

/-- The target of a redirection. -/
def targetOf (outputOf : Clause → Running Text) : Redirect → Running (Nat × Target)
  | .mk descriptor kind template => do
    let file (access : Access) : Running (Nat × Target) := do
      pure (descriptor, .file (← expandText outputOf template) access)
    match kind with
    | .input => file .read
    | .output =>
      if ← hasOption 'C' then pure (descriptor, .fresh (← expandText outputOf template))
      else file .write
    | .replace => file .write
    | .append => file .append
    | .update => file .update
    | .document index =>
      pure (descriptor, .document (((← get).documents.lookup index).getD []))
    | .duplicate => do
      let word ← expandText outputOf template
      if word = ['-'] then pure (descriptor, .nothing)
      else match Text.natural? word with
        | some source => pure (descriptor, .same source)
        | none => fail "Syntax error: Bad fd number".toList

/-- Make a descriptor refer to the same as another one. -/
def duplicateDescriptor (descriptor source : Nat) : Running (List KeptDescriptor) := do
  if source = descriptor then pure []
  else
    let kept ← keepDescriptor descriptor
    match ← task (Task.ask (.duplicate source (some descriptor))) with
    | .ok _ => pure [kept]
    | .error errno =>
      if let some number := kept.kept then task (Task.ask (.close number))
      fail (Text.decimal source ++ ": ".toList ++ errno.message.toList)

/-- Make a redirection. -/
def redirect (outputOf : Clause → Running Text) (descriptor : Nat) :
    Target → Running (List KeptDescriptor)
  | .file path access => do pure [← moveDescriptor (← openTarget path access) descriptor]
  | .fresh path => do pure [← moveDescriptor (← openTarget path (← careful path)) descriptor]
  | .same source => duplicateDescriptor descriptor source
  | .nothing => do
    let kept ← keepDescriptor descriptor
    task (Task.ask (.close descriptor))
    pure [kept]
  | .document template => do
    let text := Glyph.text (← expandTemplate outputOf ⟨false, false⟩ template)
    let (source, sink) ← task (Task.ask .makePipe)
    write sink text
    task (Task.ask (.close sink))
    pure [← moveDescriptor source descriptor]

variable (outputOf : Clause → Running Text)

/-- Make redirections; what they have changed comes last first. -/
def redirectAll (before : List KeptDescriptor) :
    List (Nat × Target) → Running (List KeptDescriptor)
  | [] => pure before
  | (descriptor, target) :: rest => do
    let kept ← tryCatch (redirect outputOf descriptor target) fun jump => do
      before.forM giveDescriptorBack
      throw jump
    redirectAll (kept.reverse ++ before) rest

/-- Let go of what descriptors referred to before. -/
def forgetKept (kept : List KeptDescriptor) : Running Unit :=
  kept.forM fun k => k.kept.forM fun number => task (Task.ask (.close number))

/-- Make redirections, if they can be made; if not that has been reported, and has set the
status. -/
def tryRedirects (redirects : List Redirect) : Running (Option (List KeptDescriptor)) := do
  let targets ← redirects.mapM (targetOf outputOf)
  tryCatch (do pure (some (← redirectAll outputOf [] targets))) fun jump =>
    if jump = .failed then pure none else throw jump

/-- Do something under redirections, if they can be made; the result says whether. -/
def withRedirects (redirects : List Redirect) (action : List KeptDescriptor → Running Unit) :
    Running Bool := do
  match ← tryRedirects outputOf redirects with
  | none => pure false
  | some kept =>
    afterwards (action kept) (kept.forM giveDescriptorBack)
    pure true

end Conch.Script
