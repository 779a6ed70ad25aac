import Conch.Script.Clause
import Conch.Text.Decimal

/-!
# Arithmetic of scripts

An expression is computed with signed numbers of 64 bits, which wrap round.  The operators
are those of the language C, without the ones that count up and down and without the comma.
A name stands for the number that the value of a variable is, and an assignment changes the
variable.
-/

namespace Conch.Script

/-- An operator between two numbers. -/
inductive BinaryOperator where
  | add | subtract | multiply | divide | remainder
  | shiftLeft | shiftRight
  | less | greater | lessEqual | greaterEqual | equal | notEqual
  | bitAnd | bitXor | bitOr
  deriving DecidableEq, Repr

/-- An operator in front of a number. -/
inductive UnaryOperator where
  | plus | minus | complement | not
  deriving DecidableEq, Repr

/-- An arithmetic expression.  The right side of `both` counts only if the left one is true, and
that of `either` only if it is false; `assign` gives a variable a value, perhaps one that is
computed from the old one. -/
inductive Expression where
  | number (value : Int64)
  | named (name : Text)
  | unary (operator : UnaryOperator) (operand : Expression)
  | binary (operator : BinaryOperator) (left right : Expression)
  | both (left right : Expression)
  | either (left right : Expression)
  | choose (condition yes no : Expression)
  | assign (name : Text) (operator : Option BinaryOperator) (value : Expression)
  deriving Repr

/-- What can be wrong with an expression: it is malformed, or a variable does not hold a number. -/
inductive ArithmeticFault where
  | malformed (message : String)
  | illegalNumber (value : Text)
  deriving DecidableEq, Repr

namespace Expression

/-- The operators between two expressions, with their precedence; longer ones come first. -/
def binaryOperators : List (String × Nat × BinaryOperator) :=
  [("<<", 8, .shiftLeft), (">>", 8, .shiftRight), ("<=", 7, .lessEqual), (">=", 7, .greaterEqual),
    ("==", 6, .equal), ("!=", 6, .notEqual), ("<", 7, .less), (">", 7, .greater), ("+", 9, .add),
    ("-", 9, .subtract), ("*", 10, .multiply), ("/", 10, .divide), ("%", 10, .remainder),
    ("&", 5, .bitAnd), ("^", 4, .bitXor), ("|", 3, .bitOr)]

/-- The operators in front of an expression. -/
def unaryOperators : List (Char × UnaryOperator) :=
  [('+', .plus), ('-', .minus), ('~', .complement), ('!', .not)]

/-- The operators that change a variable; longer ones come first. -/
def assignments : List (String × Option BinaryOperator) :=
  [("<<=", some .shiftLeft), (">>=", some .shiftRight), ("+=", some .add), ("-=", some .subtract),
    ("*=", some .multiply), ("/=", some .divide), ("%=", some .remainder), ("&=", some .bitAnd),
    ("^=", some .bitXor), ("|=", some .bitOr), ("=", none)]

/-- The value of a digit in a base of at most 16. -/
def digit? (base : Nat) (c : Char) : Option Nat :=
  let value :=
    if c.isDigit then some (c.toNat - '0'.toNat)
    else if 'a' ≤ c && c ≤ 'f' then some (c.toNat - 'a'.toNat + 10)
    else if 'A' ≤ c && c ≤ 'F' then some (c.toNat - 'A'.toNat + 10)
    else none
  value.filter (· < base)

/-- The value of digits. -/
def digitsIn (base : Nat) (digits : Text) : Nat :=
  digits.foldl (fun n c => n * base + (digit? base c).getD 0) 0

/-- A number at the beginning of a text: decimal, octal after a zero, hexadecimal after a zero and
an x. -/
def readNumber (text : Text) : Option (Nat × Text) :=
  let read (base : Nat) (text : Text) : Option (Nat × Text) :=
    let isDigit (c : Char) : Bool := (digit? base c).isSome
    if text.head?.any isDigit then
      some (digitsIn base (text.takeWhile isDigit), text.dropWhile isDigit)
    else none
  match text with
  | '0' :: 'x' :: rest | '0' :: 'X' :: rest => (read 16 rest).or (some (0, text.drop 1))
  | '0' :: _ => read 8 text
  | _ => read 10 text

/-- The text without blanks at its beginning. -/
def skipBlanks (text : Text) : Text :=
  text.dropWhile fun c => c = ' ' || c = '\t' || c = '\n'

/-- The number that the value of a variable is; an empty value is zero. -/
def ofValue (value : Text) : Except ArithmeticFault Int64 :=
  let (negative, digits) := match skipBlanks value with
    | '-' :: digits => (true, digits)
    | '+' :: digits => (false, digits)
    | digits => (false, digits)
  let rest (text : Text) : Bool := skipBlanks text = []
  match readNumber digits with
  | some (n, after) =>
    if rest after then .ok (if negative then -(Int64.ofNat n) else .ofNat n)
    else .error (.illegalNumber value)
  | none => if rest value then .ok 0 else .error (.illegalNumber value)

/-- The report of an expression that ends too soon or goes on too long. -/
def expecting (what : String) : ArithmeticFault :=
  .malformed s!"expecting {what}"

/-- What comes of reading a part of an expression: the part and the rest of the text. -/
abbrev Parsed := Except ArithmeticFault (Expression × Text)

/-- An operator that begins a text; one that an assignment begins is none. -/
def operatorAt? (text : Text) : Option (String × Nat × BinaryOperator) :=
  let begins (operator : String) : Bool := operator.toList.isPrefixOf text
  if begins "&&" || begins "||" then none
  else if (assignments.any fun a => a.1 != "=" && begins a.1) && !begins "==" then none
  else binaryOperators.find? fun entry => begins entry.1

mutual

/-- Read an expression without operators between its parts. -/
def readOperand (fuel : Nat) (text : Text) : Parsed :=
  match fuel with
  | 0 => .error (expecting "primary")
  | fuel + 1 =>
    match skipBlanks text with
    | [] => .error (expecting "primary")
    | '(' :: rest => do
      let (inner, rest) ← readExpression fuel rest
      match skipBlanks rest with
      | ')' :: rest => .ok (inner, rest)
      | _ => .error (expecting "')'")
    | c :: rest =>
      match unaryOperators.lookup c with
      | some operator => do
        let (operand, rest) ← readOperand fuel rest
        .ok (.unary operator operand, rest)
      | none =>
        match readNumber (c :: rest) with
        | some (n, rest) => .ok (.number (.ofNat n), rest)
        | none =>
          if isNameStart c then
            .ok (.named ((c :: rest).takeWhile isNameChar), (c :: rest).dropWhile isNameChar)
          else .error (expecting "primary")

/-- Read operators that bind at least so strongly, and what follows them. -/
def readBinary (fuel precedence : Nat) (left : Expression) (text : Text) : Parsed :=
  match fuel with
  | 0 => .ok (left, text)
  | fuel + 1 =>
    let text := skipBlanks text
    match operatorAt? text with
    | none => .ok (left, text)
    | some (symbol, strength, operator) =>
      if strength < precedence then .ok (left, text)
      else do
        let (first, rest) ← readOperand fuel (text.drop symbol.length)
        let (right, rest) ← readBinary fuel (strength + 1) first rest
        readBinary fuel precedence (.binary operator left right) rest

/-- Read expressions with operators between them. -/
def readOperators (fuel : Nat) (text : Text) : Parsed :=
  match fuel with
  | 0 => .error (expecting "primary")
  | fuel + 1 => do
    let (first, rest) ← readOperand fuel text
    readBinary fuel 0 first rest

/-- Read expressions that must all be true. -/
def readBoth (fuel : Nat) (text : Text) : Parsed :=
  match fuel with
  | 0 => .error (expecting "primary")
  | fuel + 1 => do
    let (left, rest) ← readOperators fuel text
    match skipBlanks rest with
    | '&' :: '&' :: rest => do
      let (right, rest) ← readBoth fuel rest
      .ok (.both left right, rest)
    | rest => .ok (left, rest)

/-- Read expressions of which one must be true. -/
def readEither (fuel : Nat) (text : Text) : Parsed :=
  match fuel with
  | 0 => .error (expecting "primary")
  | fuel + 1 => do
    let (left, rest) ← readBoth fuel text
    match skipBlanks rest with
    | '|' :: '|' :: rest => do
      let (right, rest) ← readEither fuel rest
      .ok (.either left right, rest)
    | rest => .ok (left, rest)

/-- Read an expression. -/
def readExpression (fuel : Nat) (text : Text) : Parsed :=
  match fuel with
  | 0 => .error (expecting "primary")
  | fuel + 1 => do
    let text := skipBlanks text
    let name := text.takeWhile isNameChar
    let after := skipBlanks (text.dropWhile isNameChar)
    let assignment := if !isName name || "==".toList.isPrefixOf after then none
      else assignments.find? fun entry => entry.1.toList.isPrefixOf after
    match assignment with
    | some (symbol, operator) => do
      let (value, rest) ← readExpression fuel (after.drop symbol.length)
      .ok (.assign name operator value, rest)
    | none => do
      let (condition, rest) ← readEither fuel text
      match skipBlanks rest with
      | '?' :: rest => do
        let (yes, rest) ← readExpression fuel rest
        match skipBlanks rest with
        | ':' :: rest => do
          let (no, rest) ← readExpression fuel rest
          .ok (.choose condition yes no, rest)
        | _ => .error (expecting "':'")
      | rest => .ok (condition, rest)

end

/-- Read a text that is an expression; nothing at all is zero. -/
def read (text : Text) : Except ArithmeticFault Expression :=
  if skipBlanks text = [] then .ok (.number 0)
  else do
    let (expression, rest) ← readExpression (8 * text.length + 16) text
    if skipBlanks rest = [] then .ok expression else .error (expecting "EOF")

/-- The number of a truth. -/
def ofTruth (truth : Bool) : Int64 :=
  if truth then 1 else 0

/-- Compute with two numbers. -/
def compute (operator : BinaryOperator) (a b : Int64) : Except ArithmeticFault Int64 :=
  match operator with
  | .add => .ok (a + b)
  | .subtract => .ok (a - b)
  | .multiply => .ok (a * b)
  | .divide => if b = 0 then .error (.malformed "division by zero") else .ok (a / b)
  | .remainder => if b = 0 then .error (.malformed "division by zero") else .ok (a % b)
  | .shiftLeft => .ok (a <<< b)
  | .shiftRight => .ok (a >>> b)
  | .less => .ok (ofTruth (a < b))
  | .greater => .ok (ofTruth (a > b))
  | .lessEqual => .ok (ofTruth (a ≤ b))
  | .greaterEqual => .ok (ofTruth (a ≥ b))
  | .equal => .ok (ofTruth (a = b))
  | .notEqual => .ok (ofTruth (a != b))
  | .bitAnd => .ok (a &&& b)
  | .bitXor => .ok (a ^^^ b)
  | .bitOr => .ok (a ||| b)

/-- The values that variables have been given, over those they had. -/
abbrev Computing := StateT (List (Text × Int64)) (Except ArithmeticFault)

/-- The number that a variable holds. -/
def valueOf (lookup : Text → Text) (name : Text) : Computing Int64 := do
  match (← get).lookup name with
  | some value => pure value
  | none => ofValue (lookup name)

/-- The value of an expression. -/
def evaluate (lookup : Text → Text) : Expression → Computing Int64
  | .number value => pure value
  | .named name => valueOf lookup name
  | .unary operator operand => do
    let value ← evaluate lookup operand
    pure (match operator with
      | .plus => value
      | .minus => -value
      | .complement => ~~~value
      | .not => ofTruth (value = 0))
  | .binary operator left right => do
    let a ← evaluate lookup left
    let b ← evaluate lookup right
    compute operator a b
  | .both left right => do
    if (← evaluate lookup left) = 0 then pure 0
    else pure (ofTruth ((← evaluate lookup right) != 0))
  | .either left right => do
    if (← evaluate lookup left) != 0 then pure 1
    else pure (ofTruth ((← evaluate lookup right) != 0))
  | .choose condition yes no => do
    if (← evaluate lookup condition) != 0 then evaluate lookup yes else evaluate lookup no
  | .assign name operator value => do
    let value ← evaluate lookup value
    let value ← match operator with
      | none => pure value
      | some operator => compute operator (← valueOf lookup name) value
    modify fun given => (name, value) :: given.filter fun entry => entry.1 != name
    pure value

end Expression

end Conch.Script
