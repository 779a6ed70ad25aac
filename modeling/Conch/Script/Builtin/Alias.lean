import Conch.Script.Builtin.Basic

/-!
# Commands about aliases

An alias is a word that stands for a text where a command begins.  They are listed in the order
of a table.
-/

namespace Conch.Script

namespace Alias

/-- An alias as it is shown. -/
def shown (name text : Text) : Text :=
  name ++ '=' :: Action.quoted text

/-- The name and the text of a word that creates an alias.  The equals sign does not come first. -/
def definition? : Text → Option (Text × Text)
  | [] => none
  | c :: rest => (Action.splitAssignment rest).2.map fun text =>
      (c :: (Action.splitAssignment rest).1, text)

end Alias

namespace Action

open Running

/-- Report that there is no alias by a name. -/
def reportNoAlias (command : String) (name : Text) : Running Unit :=
  write Task.errors (command.toList ++ ": ".toList ++ name ++ " not found\n".toList)

/-- The command `alias`. -/
def setAliases : Action := fun arguments => do
  if arguments = [] then
    let lines := (tableOrder usualPlaces (← get).aliases).map fun entry =>
      Alias.shown entry.1 entry.2 ++ ['\n']
    pure (.ofText lines.flatten)
  else
    arguments.foldlM (fun (reply : Reply) word => do
      match Alias.definition? word with
      | some (name, text) =>
        modify fun r => { r with aliases := putEntry name text r.aliases }
        pure reply
      | none =>
        match (← get).aliases.lookup word with
        | some text =>
          pure { reply with
            output := reply.output ++ Utf8.encode (Alias.shown word text ++ ['\n']) }
        | none =>
          reportNoAlias "alias" word
          pure { reply with status := 1 }) {}

/-- The command `unalias`. -/
def removeAliases : Action := fun arguments => do
  if (arguments.headD []).take 2 = ['-', 'a'] then
    modify fun r => { r with aliases := [] }
    pure {}
  else
    let (_, names) ← readFlags [] arguments
    names.foldlM (fun (reply : Reply) name => do
      if ((← get).aliases.lookup name).isSome then
        modify fun r => { r with aliases := r.aliases.filter fun entry => entry.1 != name }
        pure reply
      else
        reportNoAlias "unalias" name
        pure (.ofStatus 1)) {}

end Action

end Conch.Script
