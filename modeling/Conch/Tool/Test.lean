import Conch.Tool.Basic

/-!
# Conditions

`test` decides a condition that its words make up: facts about files and texts, comparisons of
texts and numbers, and combinations of them.  With up to four words the number of words says
what they mean; with more of them the operators have precedence.

A condition that makes no sense is refused, and the two programs that decide conditions put
that into different words.
-/

namespace Conch

/-- Why a condition is refused: a word is no number, an operand is missing behind a word, there is a
word too many, a closing parenthesis is missing, or a word that should be an operator between two
others is none. -/
inductive ConditionFault where
  | noNumber (word : Text)
  | missing (word : Text)
  | unexpected (word : Text)
  | unclosed
  | noOperator (word : Text)
  deriving DecidableEq, Repr

namespace Condition

/-- The operators in front of one word. -/
def unaryOperators : List String :=
  ["-n", "-z", "-e", "-d", "-f", "-p", "-s", "-x", "-r", "-w", "-h", "-L", "-b", "-c", "-S", "-g",
    "-u", "-k", "-O", "-G", "-t"]

/-- The operators between two words. -/
def binaryOperators : List String :=
  ["=", "==", "!=", "<", ">", "-eq", "-ne", "-lt", "-le", "-gt", "-ge", "-nt", "-ot", "-ef"]

/-- Is the word one of these? -/
def isOne (words : List String) (word : Text) : Bool :=
  words.any fun w => w.toList == word

/-- The number that a word stands for; blanks around it do no harm. -/
def number (word : Text) : Except ConditionFault Int :=
  let isGap (c : Char) : Bool := c = ' ' || c = '\t' || c = '\n'
  let trimmed := ((word.dropWhile isGap).reverse.dropWhile isGap).reverse
  let unsigned := match trimmed with
    | '+' :: digits => digits
    | digits => digits
  match Text.integer? unsigned with
  | some n => .ok n
  | none => .error (.noNumber word)

/-- The condition that an operator and a word make up. -/
def unary (view : View) (operator word : Text) : Except ConditionFault Bool :=
  let node? := (view.find word).toOption
  let named? := ((view.files.findFor .entry view.directory word).toOption).bind view.files.node?
  match String.ofList operator with
  | "-n" => .ok (word != [])
  | "-z" => .ok (word = [])
  | "-d" => .ok (node?.any Node.isDirectory)
  | "-f" => .ok (node?.any Node.isRegular)
  | "-p" => .ok (node? == some .pipe)
  | "-c" => .ok (node?.any Node.isDevice)
  | "-s" => .ok (node?.any fun node => !node.contents.isEmpty || node.isDirectory)
  | "-r" => .ok (node?.any (Node.permits .reading))
  | "-w" => .ok (node?.any (Node.permits .writing))
  | "-x" => .ok (node?.any fun node => node.permits .running || node.isDirectory)
  | "-h" | "-L" => .ok (named?.any Node.isLink)
  | "-t" => (number word).map fun _ => false
  | "-b" | "-S" | "-g" | "-u" | "-k" => .ok false
  | _ => .ok node?.isSome

/-- The condition that an operator between two words makes up. -/
def binary (view : View) (left operator right : Text) : Except ConditionFault Bool :=
  let compare (f : Int → Int → Bool) : Except ConditionFault Bool := do
    let a ← number left
    let b ← number right
    pure (f a b)
  let same : Bool :=
    match view.files.find view.directory left, view.files.find view.directory right with
    | .ok a, .ok b => a = b
    | _, _ => false
  match String.ofList operator with
  | "=" | "==" => .ok (left = right)
  | "!=" => .ok (left != right)
  | "<" => .ok (String.ofList left < String.ofList right)
  | ">" => .ok (String.ofList right < String.ofList left)
  | "-eq" => compare fun a b => a = b
  | "-ne" => compare fun a b => a != b
  | "-lt" => compare fun a b => a < b
  | "-le" => compare fun a b => a ≤ b
  | "-gt" => compare fun a b => a > b
  | "-ge" => compare fun a b => a ≥ b
  | "-ef" => .ok same
  | _ => .ok false

/-- What comes of deciding the first words: the answer and the words that are left. -/
abbrev Decided := Except ConditionFault (Bool × List Text)

mutual

/-- Decide a condition without a combination. -/
def decideOne (view : View) (fuel : Nat) (words : List Text) : Decided :=
  match fuel, words with
  | 0, _ | _, [] => .error (.missing [])
  | fuel + 1, first :: rest =>
    let isBinary : Bool := match rest with
      | operator :: _ :: _ => isOne binaryOperators operator
      | _ => false
    if isBinary then
      match rest with
      | operator :: right :: rest => (binary view first operator right).map fun b => (b, rest)
      | _ => .error (.missing first)
    else if first = ['!'] && rest != [] then do
      let (b, rest) ← decideOne view fuel rest
      pure (!b, rest)
    else if first = ['('] && rest != [] then do
      let (b, rest) ← decideEither view fuel rest
      match rest with
      | [')'] :: rest => pure (b, rest)
      | _ => .error .unclosed
    else if isOne unaryOperators first && rest != [] then
      match rest with
      | word :: rest => (unary view first word).map fun b => (b, rest)
      | [] => .error (.missing first)
    else .ok (first != [], rest)

/-- Decide conditions that must all hold. -/
def decideBoth (view : View) (fuel : Nat) (words : List Text) : Decided :=
  match fuel with
  | 0 => .error (.missing [])
  | fuel + 1 => do
    let (a, rest) ← decideOne view fuel words
    match rest with
    | ['-', 'a'] :: rest => do
      if rest = [] then .error (.missing ['-', 'a'])
      else
        let (b, rest) ← decideBoth view fuel rest
        pure (a && b, rest)
    | rest => pure (a, rest)

/-- Decide conditions of which one must hold. -/
def decideEither (view : View) (fuel : Nat) (words : List Text) : Decided :=
  match fuel with
  | 0 => .error (.missing [])
  | fuel + 1 => do
    let (a, rest) ← decideBoth view fuel words
    match rest with
    | ['-', 'o'] :: rest => do
      if rest = [] then .error (.missing ['-', 'o'])
      else
        let (b, rest) ← decideEither view fuel rest
        pure (a || b, rest)
    | rest => pure (a, rest)

end

/-- Decide a condition of any number of words. -/
def decideMany (view : View) (words : List Text) : Except ConditionFault Bool := do
  let (b, rest) ← decideEither view (4 * words.length + 4) words
  match rest with
  | [] => pure b
  | word :: _ => .error (.unexpected word)

/-- Decide a condition of at most two words. -/
def decideTwo (view : View) : List Text → Except ConditionFault Bool
  | [] => .ok false
  | [word] => .ok (word != [])
  | [operator, word] =>
    if operator = ['!'] then .ok (word = [])
    else if isOne unaryOperators operator then unary view operator word
    else .error (.noOperator operator)
  | words => decideMany view words

/-- Decide a condition of three words. -/
def decideThree (view : View) (left operator right : Text) : Except ConditionFault Bool :=
  if isOne binaryOperators operator then binary view left operator right
  else if operator = ['-', 'a'] then .ok (left != [] && right != [])
  else if operator = ['-', 'o'] then .ok (left != [] || right != [])
  else if left = ['!'] then (decideTwo view [operator, right]).map (!·)
  else if left = ['('] && right = [')'] then .ok (operator != [])
  else .error (.noOperator operator)

/-- Decide a condition. -/
def decide (view : View) : List Text → Except ConditionFault Bool
  | [left, operator, right] => decideThree view left operator right
  | [first, a, b, c] =>
    if first = ['!'] then (decideThree view a b c).map (!·)
    else if first = ['('] && c = [')'] then decideTwo view [a, b]
    else decideMany view [first, a, b, c]
  | words => if words.length < 3 then decideTwo view words else decideMany view words

end Condition

/-- A refused condition, in the words of the program. -/
def ConditionFault.programText : ConditionFault → Text
  | noNumber word => "invalid integer ".toList ++ Tool.cited word
  | missing word => "missing argument after ".toList ++ Tool.cited word
  | unexpected word => "extra argument ".toList ++ Tool.cited word
  | unclosed => "')' expected".toList
  | noOperator word =>
    if word.head? == some '-' then Tool.cited word ++ ": unary operator expected".toList
    else Tool.cited word ++ ": binary operator expected".toList

/-- The operands of a condition: the name with a bracket wants one at the end, too. -/
def Condition.operands? (name : Text) (arguments : List Text) : Option (List Text) :=
  if name != ['['] then some arguments
  else if arguments.getLast? = some [']'] then some arguments.dropLast
  else none

namespace Tool

/-- The program `test`. -/
def test (call : Call) : Task Nat := do
  match Condition.operands? call.program call.arguments with
  | none =>
    call.report "missing ']'".toList
    pure 2
  | some words =>
    match Condition.decide (← Task.look) words with
    | .ok truth => pure (if truth then 0 else 1)
    | .error fault =>
      call.report fault.programText
      pure 2

end Tool

end Conch
