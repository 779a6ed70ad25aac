import Conch.Script.Builtin.Basic
import Conch.Tool.Test

/-!
# Conditions of scripts

The builtin command `test` decides conditions of any number of words.  What a word is depends on
those after it: an operator that has nothing to work on is an operand.

Each step of the decision has the words ahead from the last one on that it has used up, so that a
report can name that word.
-/

namespace Conch.Script

/-- What a word of a condition is, if there is one: an operand, an operator before an operand or
between operands, one that negates or that wants both sides or one, or a parenthesis. -/
inductive ConditionToken where
  | ending
  | operand
  | unary
  | binary
  | negation
  | both
  | either
  | opening
  | closing
  deriving DecidableEq, Repr

namespace ConditionToken

/-- The operators before an operand. -/
def unaryOperators : List String :=
  ["-r", "-w", "-x", "-e", "-f", "-d", "-c", "-b", "-p", "-u", "-g", "-k", "-s", "-t", "-z", "-n",
    "-h", "-O", "-G", "-L", "-S"]

/-- The operators between operands. -/
def binaryOperators : List String :=
  ["=", "!=", "<", ">", "-eq", "-ne", "-ge", "-gt", "-le", "-lt", "-nt", "-ot", "-ef"]

/-- The operator that a word is, if it is one. -/
def operator? (word : Text) : Option ConditionToken :=
  if Condition.isOne unaryOperators word then some .unary
  else if Condition.isOne binaryOperators word then some .binary
  else match word with
    | ['!'] => some .negation
    | ['-', 'a'] => some .both
    | ['-', 'o'] => some .either
    | ['('] => some .opening
    | [')'] => some .closing
    | _ => none

/-- What the first of some words is. -/
def ofWords : List Text → ConditionToken
  | [] => .ending
  | word :: rest =>
    let standsAlone : Bool := match rest with
      | [] => true
      | [_] => false
      | next :: _ => operator? next == some .binary
    match operator? word with
    | none => .operand
    | some .unary => if standsAlone then .operand else .unary
    | some .opening => if rest = [] then .operand else .opening
    | some token => token

end ConditionToken

/-- What comes of a condition: its truth, and the words from the last one on that it has used up; or
why it is refused. -/
abbrev DecidedWords := Except Text (Bool × List Text)

/-- The number that a word of a condition stands for. -/
def conditionNumber (word : Text) : Except Text Int :=
  match Text.paddedInteger? word with
  | some n =>
    if -Int.pow 2 63 ≤ n && n < Int.pow 2 63 then .ok n
    else .error ("Illegal number: ".toList ++ word)
  | none => .error ("Illegal number: ".toList ++ word)

/-- Decide a condition of an operator and an operand. -/
def decideUnary (view : View) (operator word : Text) : Except Text Bool :=
  match String.ofList operator with
  | "-t" => (conditionNumber word).map fun _ => false
  | "-O" | "-G" => .ok (view.find word).isOk
  | _ => (Condition.unary view operator word).mapError fun _ => word

/-- Decide a condition of an operator between two operands. -/
def decideBinary (view : View) (left operator right : Text) : Except Text Bool :=
  let compare (f : Int → Int → Bool) : Except Text Bool := do
    pure (f (← conditionNumber left) (← conditionNumber right))
  match String.ofList operator with
  | "-eq" => compare (· == ·)
  | "-ne" => compare (· != ·)
  | "-lt" => compare (· < ·)
  | "-le" => compare (· ≤ ·)
  | "-gt" => compare (· > ·)
  | "-ge" => compare (· ≥ ·)
  | _ => (Condition.binary view left operator right).mapError fun _ => operator

mutual

/-- Decide conditions of which one must hold. -/
def decideSome (view : View) (fuel : Nat) (token : ConditionToken) (words : List Text) :
    DecidedWords :=
  match fuel with
  | 0 => .ok (false, words)
  | fuel + 1 => do
    let (truth, words) ← decideEvery view fuel token words
    if ConditionToken.ofWords (words.drop 1) = .either then
      let words := words.drop 2
      let (other, words) ← decideSome view fuel (.ofWords words) words
      pure (truth || other, words)
    else pure (truth, words)

/-- Decide conditions that must all hold. -/
def decideEvery (view : View) (fuel : Nat) (token : ConditionToken) (words : List Text) :
    DecidedWords :=
  match fuel with
  | 0 => .ok (false, words)
  | fuel + 1 => do
    let (truth, words) ← decideNegated view fuel token words
    if ConditionToken.ofWords (words.drop 1) = .both then
      let words := words.drop 2
      let (other, words) ← decideEvery view fuel (.ofWords words) words
      pure (truth && other, words)
    else pure (truth, words)

/-- Decide a condition that may be negated. -/
def decideNegated (view : View) (fuel : Nat) (token : ConditionToken) (words : List Text) :
    DecidedWords :=
  match fuel with
  | 0 => .ok (false, words)
  | fuel + 1 => do
    if token != .negation then decidePrimary view fuel token words
    else
      let next := ConditionToken.ofWords (words.drop 1)
      let (truth, words) ←
        decideNegated view fuel next (if next = .ending then words else words.drop 1)
      pure (!truth, words)

/-- Decide a condition that is not made of others, or that has parentheses around it. -/
def decidePrimary (view : View) (fuel : Nat) (token : ConditionToken) (words : List Text) :
    DecidedWords :=
  match fuel with
  | 0 => .ok (false, words)
  | fuel + 1 => do
    match token with
    | .ending => .ok (false, words)
    | .opening =>
      let inner := words.drop 1
      if ConditionToken.ofWords inner = .closing then .ok (false, inner)
      else
        let (truth, words) ← decideSome view fuel (.ofWords inner) inner
        let words := words.drop 1
        if ConditionToken.ofWords words = .closing then .ok (truth, words)
        else .error "closing paren expected".toList
    | .unary =>
      match words with
      | operator :: word :: rest => pure (← decideUnary view operator word, word :: rest)
      | _ => .error (words.headD [] ++ ": argument expected".toList)
    | _ =>
      if ConditionToken.ofWords (words.drop 1) = .binary then
        match words with
        | left :: operator :: right :: rest =>
          pure (← decideBinary view left operator right, right :: rest)
        | _ => .error ((words.drop 1).headD [] ++ ": argument expected".toList)
      else .ok (words.headD [] != [], words)

end

/-- Decide a condition, given what its first word is; no word may be left. -/
def decideAll (view : View) (token : ConditionToken) (words : List Text) : Except Text Bool := do
  match ← decideSome view (4 * words.length + 8) token words with
  | (_, last :: _ :: _) => .error (last ++ ": unexpected operator".toList)
  | (truth, _) => pure truth

/-- Decide a condition.  Three words are an operator between two others if they can be; otherwise
parentheses around three or four words are taken away, and a negation before them counts for all of
them. -/
def decideWords (view : View) : List Text → Except Text Bool
  | [] => .ok false
  | words@(first :: rest) =>
    let isBinary := words.length = 3 &&
      ConditionToken.operator? (rest.headD []) == some .binary
    if isBinary then decideAll view .operand words
    else if words.length = 3 || words.length = 4 then
      if first = ['('] && words.getLast? = some [')'] then
        decideAll view (.ofWords rest.dropLast) rest.dropLast
      else if first = ['!'] then (decideWords view rest).map (!·)
      else decideAll view (.ofWords words) words
    else decideAll view (.ofWords words) words

end Conch.Script
