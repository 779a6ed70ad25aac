import Conch.Tool.Basic

/-!
# Options of programs

An option is a letter after one dash, or a name after two.  Letters can stand together; a name
can be cut short as long as it remains clear which one is meant.  An option that wants an operand
takes what is left of its group of letters, or what follows the equals sign behind its name, or
else the next word.

Options and operands can be mixed; two dashes end the options.  Some programs also take
everything from the first operand on as operands.
-/

namespace Conch.Tool

/-- An option that a program knows: the character that stands for it, which may be a way to write
it, its name, if it has one, and whether it wants an operand. -/
structure OptionName where
  key : Char
  name : Text := []
  wantsOperand : Bool := false
  isLetter : Bool := true
  deriving DecidableEq, Repr

/-- What is wrong with an option: there is no such letter or name, several names begin like this,
the operand of a letter or a name is missing, or a name does not want the operand it was given. -/
inductive OptionFault where
  | unknownLetter (letter : Char)
  | unknownName (word : Text)
  | unclear (word : Text) (names : List Text)
  | letterAlone (letter : Char)
  | nameAlone (name : Text)
  | superfluous (name : Text)
  deriving DecidableEq, Repr

/-- Options that want no operand and have no names. -/
def letters (keys : List Char) : List OptionName :=
  keys.map fun key => { key }

/-- An option with a letter and a name. -/
def named (key : Char) (name : String) : OptionName :=
  { key, name := name.toList }

namespace OptionFault

/-- A character that is no letter of the common alphabet shows as damaged text. -/
def shownLetter (letter : Char) : Text :=
  ['\'', if letter.toNat < 0x80 then letter else Utf8.replacement, '\'']

/-- The name of an option as it is written. -/
def shownName (name : Text) : Text :=
  "'--".toList ++ name ++ ['\'']

/-- What is wrong, in words. -/
def message : OptionFault → Text
  | unknownLetter letter => "invalid option -- ".toList ++ shownLetter letter
  | unknownName word => "unrecognized option ".toList ++ shownName word
  | unclear word names =>
    "option ".toList ++ shownName word ++ " is ambiguous; possibilities:".toList ++
      names.flatMap fun name => ' ' :: shownName name
  | letterAlone letter => "option requires an argument -- ".toList ++ shownLetter letter
  | nameAlone name => "option ".toList ++ shownName name ++ " requires an argument".toList
  | superfluous name => "option ".toList ++ shownName name ++ " doesn't allow an argument".toList

end OptionFault

/-- The options that every program has: they ask about the program itself.  They have no letters. -/
def commonOptions : List OptionName :=
  [{ key := '\x01', name := "help".toList, isLetter := false },
    { key := '\x02', name := "version".toList, isLetter := false }]

/-- The options and operands of a call: the options by their characters, with their operands, as far
as they can be read, and what is wrong with the next one. -/
structure Settings where
  options : List (Char × Text) := []
  operands : List Text := []
  fault : Option OptionFault := none
  deriving DecidableEq, Repr

namespace Settings

/-- Was an option given? -/
def has (s : Settings) (key : Char) : Bool :=
  s.options.any fun option => option.1 == key

/-- The last option among some. -/
def lastOf? (s : Settings) (keys : List Char) : Option (Char × Text) :=
  (s.options.filter fun option => keys.contains option.1).getLast?

/-- One more option. -/
def withOption (key : Char) (operand : Text) (s : Settings) : Settings :=
  { s with options := (key, operand) :: s.options }

/-- One more operand. -/
def withOperand (word : Text) (s : Settings) : Settings :=
  { s with operands := word :: s.operands }

end Settings

/-- The options that are complete, and the one that wants the next word, with what is wrong if there
is none. -/
structure Opened where
  complete : List (Char × Text) := []
  waiting : Option (Char × OptionFault) := none

/-- Read the letters of a group. -/
def readLetters (known : List OptionName) : Text → Except OptionFault Opened
  | [] => .ok {}
  | letter :: rest =>
    match known.find? fun option => option.isLetter && option.key == letter with
    | none => .error (.unknownLetter letter)
    | some option =>
      if option.wantsOperand then
        if rest = [] then .ok { waiting := some (letter, .letterAlone letter) }
        else .ok { complete := [(letter, rest)] }
      else
        (readLetters known rest).map fun opened =>
          { opened with complete := (letter, []) :: opened.complete }

/-- The option that a name, or its beginning, stands for.  `word` is how it was written. -/
def findName (known : List OptionName) (word name : Text) : Except OptionFault OptionName :=
  match known.find? fun option => option.name != [] && option.name == name with
  | some option => .ok option
  | none =>
    match known.filter fun option => option.name != [] && name.isPrefixOf option.name with
    | [] => .error (.unknownName word)
    | option :: others =>
      if others.all fun other => other.key == option.key then .ok option
      else .error (.unclear word ((option :: others).map OptionName.name))

/-- Read a name with what belongs to it. -/
def readName (known : List OptionName) (word : Text) : Except OptionFault Opened :=
  let name := word.takeWhile (· != '=')
  match findName known word name with
  | .error fault => .error fault
  | .ok option =>
    match word.drop name.length, option.wantsOperand with
    | [], false => .ok { complete := [(option.key, [])] }
    | [], true => .ok { waiting := some (option.key, .nameAlone option.name) }
    | _ :: operand, true => .ok { complete := [(option.key, operand)] }
    | _ :: _, false => .error (.superfluous option.name)

/-- Read the words of a call.  `mixed` says whether options can come after operands, and `waiting`
which option wants the next word. -/
def readWords (known : List OptionName) (mixed : Bool) :
    (waiting : Option (Char × OptionFault)) → List Text → Settings
  | none, [] => {}
  | some (_, fault), [] => { fault := some fault }
  | some (key, _), word :: rest => (readWords known mixed none rest).withOption key word
  | none, word :: rest =>
    let continued (opened : Except OptionFault Opened) : Settings :=
      match opened with
      | .error fault => { fault := some fault }
      | .ok opened =>
        let settings := readWords known mixed opened.waiting rest
        { settings with options := opened.complete ++ settings.options }
    match word with
    | ['-', '-'] => { operands := rest }
    | '-' :: '-' :: word => continued (readName known word)
    | '-' :: letter :: more => continued (readLetters known (letter :: more))
    | _ =>
      if mixed then (readWords known mixed none rest).withOperand word
      else { operands := word :: rest }

/-- Do something with options and operands that have been read.  A fault in them is reported, and
the exit code is `failure` then; a question about the program itself is not answered. -/
def Call.withRead (call : Call) (failure : Nat) (settings : Settings)
    (action : Settings → Task Nat) : Task Nat :=
  if settings.options.any fun option => commonOptions.any fun common => common.key == option.1 then
    pure 0
  else match settings.fault with
    | some fault => call.refuse fault.message failure
    | none => action settings

/-- Do something with the options and operands of a call; a fault in them is reported, and the exit
code is `failure` then. -/
def Call.withSettings (call : Call) (known : List OptionName) (mixed : Bool) (failure : Nat)
    (action : Settings → Task Nat) : Task Nat :=
  call.withRead failure (readWords (known ++ commonOptions) mixed none call.arguments) action

/-- Do something with the options and operands of a call. -/
def Call.withOptions (call : Call) (known : List OptionName) (action : Settings → Task Nat) :
    Task Nat :=
  call.withSettings known true 1 action

end Conch.Tool
