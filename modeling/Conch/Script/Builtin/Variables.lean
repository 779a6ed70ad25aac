import Conch.Script.Builtin.Basic
import Conch.Script.Field

/-!
# Builtin commands about variables, parameters and options

These commands change what a script remembers.  One that lists what there is writes commands
that would bring it about again.
-/

namespace Conch.Script.Action

open Running

/-! ## Variables -/

/-- Mark a variable, after giving it a value if there is one. -/
def markVariable (mark : Variable → Variable) (word : Text) : Running Unit := do
  let (name, value) := splitAssignment word
  checkName name
  if let some value := value then assign name value
  let v := (← variableNamed? name).getD { value := none }
  modify fun r => { r with
    bindings := putEntry name (mark v) r.bindings }

/-- Mark variables, or list those that are marked. -/
def marking (name : String) (mark : Variable → Variable) (isMarked : Variable → Bool) : Action :=
  fun arguments => do
    let (options, words) ← readFlags ['p'] arguments
    if options = [] && words != [] then
      words.forM (markVariable mark)
      pure {}
    else
      let marked := (← get).bindings.filter fun entry => isMarked entry.2
      pure (.ofText (assignments (name.toList ++ [' ']) marked))

/-- The command `export`. -/
def exportVariables : Action :=
  marking "export" (fun v => { v with exported := true }) Variable.exported

/-- The command `readonly`. -/
def protectVariables : Action :=
  marking "readonly" (fun v => { v with readOnly := true }) Variable.readOnly

/-- The command `local`. -/
def localVariables : Action := fun arguments => do
  if (← get).hidden = [] then fail "not in a function".toList
  arguments.forM fun word => do
    let (name, value) := splitAssignment word
    checkName name
    hide name
    if let some value := value then assign name value
  pure {}

/-- The command `unset`. -/
def unsetVariables : Action := fun arguments => do
  let (options, names) ← readFlags ['v', 'f'] arguments
  names.forM fun name => do
    if options.getLast? = some 'f' then
      modify fun r => { r with
        functions := r.functions.filter fun entry => entry.1 != name }
    else unassign name
  pure {}

/-! ## Parameters and options -/

/-- The options by their letters and names; those that have no letters have characters that are not
seen. -/
def optionNames : List (Char × String) :=
  [('e', "errexit"), ('f', "noglob"), ('I', "ignoreeof"), ('i', "interactive"), ('m', "monitor"),
    ('n', "noexec"), ('s', "stdin"), ('x', "xtrace"), ('v', "verbose"), ('V', "vi"),
    ('E', "emacs"), ('C', "noclobber"), ('a', "allexport"), ('b', "notify"), ('u', "nounset"),
    ('p', "privileged"), ('\x01', "nolog"), ('\x02', "debug")]

/-- Set an option, or take it away. -/
def setOption (isOn : Bool) (c : Char) : Running Unit := do
  if (optionNames.lookup c).isNone then fail ("Illegal option -".toList ++ [c])
  modify fun r =>
    let isSet (option : Char) : Bool := if option = c then isOn else r.options.contains option
    { r with options := ((optionNames.map Prod.fst).filter isSet).reverse }

/-- Set an option by its name, or take it away. -/
def setNamedOption (isOn : Bool) (name : Text) : Running Unit := do
  match optionNames.find? fun entry => entry.2.toList == name with
  | some (c, _) => setOption isOn c
  | none => fail ("Illegal option -o ".toList ++ name)

/-- The options and whether they are set. -/
def listOptions (isOn : Bool) : Running Text := do
  let r ← get
  let line (entry : Char × String) : Text :=
    let isSet := r.options.contains entry.1
    if isOn then
      entry.2.toList ++ List.replicate (16 - entry.2.length) ' ' ++
        (if isSet then "on\n" else "off\n").toList
    else (if isSet then "set -o " else "set +o ").toList ++ entry.2.toList ++ ['\n']
  let lines := optionNames.flatMap line
  pure (if isOn then "Current option settings\n".toList ++ lines else lines)

/-- Set the options in the letters of an argument; the result is what is written and which arguments
are left. -/
def setLetters (isOn : Bool) : Text → List Text → Running (Text × List Text)
  | [], rest => pure ([], rest)
  | 'o' :: letters, rest => do
    let written ← match rest with
      | [] => listOptions isOn
      | name :: _ => do
        setNamedOption isOn name
        pure []
    let (more, rest) ← setLetters isOn letters (rest.drop 1)
    pure (written ++ more, rest)
  | c :: letters, rest => do
    setOption isOn c
    setLetters isOn letters rest

/-- Set the options at the beginning of at most `fuel` arguments.  What is left has new parameters
if there are any. -/
def setOptions : (fuel : Nat) → List Text → Running (Text × Option (List Text))
  | 0, rest => pure ([], some rest)
  | fuel + 1, arguments => do
    match arguments with
    | [] => pure ([], none)
    | ['-'] :: rest =>
      setOption false 'x'
      setOption false 'v'
      pure ([], if rest = [] then none else some rest)
    | ['-', '-'] :: rest => pure ([], some rest)
    | (sign :: letters) :: rest =>
      if sign = '-' || sign = '+' then
        let (written, rest) ← setLetters (sign = '-') letters rest
        let (more, parameters) ← setOptions fuel rest
        pure (written ++ more, parameters)
      else pure ([], some arguments)
    | [] :: _ => pure ([], some arguments)

/-- Take the option to control jobs away, for there is no terminal to do it from.  Only the first
process of a script looks for one. -/
def checkMonitor : Running Unit := do
  let r ← get
  if r.options.contains 'm' && (← look).pid = r.pid then
    report "can't access tty; job control turned off".toList
    setOption false 'm'

/-- The command `set`. -/
def setAll : Action := fun arguments => do
  if arguments = [] then
    let set := (← get).bindings.filter fun entry => entry.2.value.isSome
    pure (.ofText (assignments [] set))
  else
    let (written, parameters) ← setOptions (arguments.length + 1) arguments
    checkMonitor
    if let some parameters := parameters then
      modify fun r => { r with parameters }
    pure (.ofText written)

/-- The command `shift`. -/
def shift : Action := fun arguments => do
  let count ← match arguments.head? with
    | some word => number word
    | none => pure 1
  if count > (← get).parameters.length then fail "can't shift that many".toList
  modify fun r => { r with parameters := r.parameters.drop count }
  pure {}

/-! ## Reading -/

/-- Read a line from standard input: its characters, and whether its end was found.  A backslash
quotes the next character, unless the line is `raw`, and joins lines. -/
def readLine (raw : Bool) : (fuel : Nat) → (escaped : Bool) → List UInt8 → List PatternChar →
    Running (List PatternChar × Bool)
  | 0, _, _, line => pure (line, false)
  | fuel + 1, escaped, begun, line => do
    match ← task (Task.ask (.read Task.input 1)) with
    | .error _ | .ok [] => pure (line, false)
    | .ok (byte :: _) =>
      let begun := begun ++ [byte]
      match Utf8.feedAll .start begun with
      | (_, .inside ..) => readLine raw fuel escaped begun line
      | (chars, .start) =>
        match chars with
        | ['\x00'] => readLine raw fuel escaped [] line
        | ['\n'] => if escaped then readLine raw fuel false [] line else pure (line, true)
        | ['\\'] =>
          if raw || escaped then readLine raw fuel false [] (line ++ [⟨'\\', escaped⟩])
          else readLine raw fuel true [] line
        | chars => readLine raw fuel false [] (line ++ chars.map fun c => ⟨c, escaped⟩)

/-- The command `read`. -/
def readVariables : Action := fun arguments => do
  let (options, names) ← readOptions [('p', true), ('r', false)] arguments
  if names = [] then fail "arg count".toList
  let raw := options.any fun option => option.1 == 'r'
  let (line, ended) ← readLine raw Task.patience false [] []
  let separators := (← value? "IFS".toList).getD usualSeparators
  let values := cutLine separators names.length line
  (names.zip (values ++ List.replicate names.length [])).forM fun (name, value) => do
    checkName name
    assign name value
  pure (.ofStatus (if ended then 0 else 1))

/-! ## Options of the script -/

/-- An option that has been read: there are no more, or it has a letter and perhaps an operand, or
it is not known, or it lacks the operand that it wants. -/
inductive ReadOption where
  | ending
  | option (letter : Char) (operand : Text)
  | unknown (letter : Char)
  | incomplete (letter : Char)
  deriving DecidableEq, Repr

/-- Read the letter at a place, and its operand if it wants one; `next` is the number of the word
after the one with the letter.  The result has the place after it. -/
def readLetter (known : Text) (words : List Text) (next : Nat) (offset : Nat) (letter : Char)
    (more : Text) : ReadOption × (Nat × Option Nat) :=
  let place := (next, some (offset + 1))
  match known.dropWhile (· != letter) with
  | [] => (.unknown letter, place)
  | _ :: ':' :: _ =>
    if letter = ':' then (.unknown letter, place)
    else if more != [] then (.option letter more, (next, none))
    else match words[next - 1]? with
      | some operand => (.option letter operand, (next + 1, none))
      | none => (.incomplete letter, (next, some (offset + 1)))
  | _ => if letter = ':' then (.unknown letter, place) else (.option letter [], place)

/-- Read the option at a place. -/
def readOption (known : Text) (words : List Text) (place : Nat × Option Nat) :
    ReadOption × (Nat × Option Nat) :=
  let (index, offset) := place
  let current := match offset with
    | some offset => ((words[index - 2]?).getD []).drop offset
    | none => []
  match if index ≤ 1 then [] else current with
  | letter :: more => readLetter known words index (offset.getD 0) letter more
  | [] =>
    match words[index - 1]? with
    | some ['-', '-'] => (.ending, (index + 1, none))
    | some ('-' :: letter :: more) => readLetter known words (index + 1) 1 letter more
    | _ => (.ending, (index, none))

/-- The command `getopts`. -/
def nextOption : Action := fun arguments => do
  let (_, arguments) ← readFlags [] arguments
  match arguments with
  | known :: name :: given =>
    let r ← get
    let words := if given = [] then r.parameters else given
    let start := if r.optionPlace.1 > words.length + 1 then (1, none) else r.optionPlace
    let (found, place) := readOption known words start
    let quiet := known.head? = some ':'
    let refuse (text : String) (letter : Char) : Running Unit := do
      if quiet then assign "OPTARG".toList [letter]
      else
        write Task.errors (text.toList.flatMap fun c => if c = '_' then [letter] else [c])
        unassign "OPTARG".toList
    let shown : Char ← match found with
      | .ending => pure '?'
      | .option letter operand =>
        assign "OPTARG".toList operand
        pure letter
      | .unknown letter =>
        refuse "Illegal option -_\n" letter
        pure '?'
      | .incomplete letter =>
        refuse "No arg for -_ option\n" letter
        pure (if quiet then ':' else '?')
    assign optionVariable (Text.decimal place.1)
    modify fun r => { r with optionPlace := place }
    checkName name
    assign name [shown]
    pure (.ofStatus (if found = .ending then 1 else 0))
  | _ => fail "Usage: getopts optstring var [arg...]".toList

end Conch.Script.Action
