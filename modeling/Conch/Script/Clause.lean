import Conch.Text.Blank

/-!
# Scripts

The system's own shell, `sh`, runs scripts in a language that is far richer than that of the
lines of this shell.  A script is made of clauses: simple commands, and clauses that join,
choose between, repeat or set apart other clauses.  The words of a simple command are
templates, in which parameters, the output of clauses and the results of arithmetic take their
places when the command is run.
-/

namespace Conch.Script

/-- What is done with the value of a parameter.  Nothing may be done, its length may take its place,
and the operand may take the place of a missing value, be given to the parameter as well, describe
the error that a missing value is, or take the place of a value that is not missing.  Or what the
operand matches at the end or at the beginning is cut off.  A flag `orEmpty` says that an empty
value counts as a missing one, and `longest` asks for the longest match. -/
inductive Change where
  | plain
  | length
  | orElse (orEmpty : Bool)
  | orAssign (orEmpty : Bool)
  | orFail (orEmpty : Bool)
  | ifSet (orEmpty : Bool)
  | cutEnd (longest : Bool)
  | cutStart (longest : Bool)
  deriving DecidableEq, Repr

/-- What a redirection of a script does with a file descriptor.  A file is opened for reading, for
writing, where what it holds is lost (`replace` does so whatever the options say), to write behind
what it holds, or for both; or the descriptor becomes the same as another one, or is closed, or the
text with a given number is read that stands in the script. -/
inductive RedirectKind where
  | input
  | output
  | replace
  | append
  | update
  | duplicate
  | document (index : Nat)
  deriving DecidableEq, Repr

mutual

/-- A piece of a word: text that stands for itself, the value of a parameter, what a clause writes,
or the value of an arithmetic expression.  What is quoted is neither cut into words nor taken for a
pattern. -/
inductive Fragment where
  | text (quoted : Bool) (text : Text)
  | parameter (quoted : Bool) (name : Text) (change : Change) (operand : List Fragment)
  | output (quoted : Bool) (clause : Clause)
  | arithmetic (quoted : Bool) (expression : List Fragment)

/-- A redirection, which concerns one file descriptor. -/
inductive Redirect where
  | mk (descriptor : Nat) (kind : RedirectKind) (target : List Fragment)

/-- A script, or a part of one.

A `simple` command sets variables, and runs a command unless there is no word.  A `subshell` is a
clause in a process of its own, and a `background` clause is one that is not waited for; in a
`pipeline` each clause reads what the one before writes.  The second clause of `both` counts if the
first succeeds, that of `either` if the first fails, and `negate` exchanges success and failure.  A
`loop` runs its body as long as the condition succeeds, or fails, and `each` for each of some words;
`select` takes the first clause of whose patterns one matches the subject, and `define` defines a
function. -/
inductive Clause where
  | skip
  | simple (line : Nat) (assignments : List (Text × List Fragment))
      (words : List (List Fragment)) (redirects : List Redirect)
  | redirected (line : Nat) (body : Clause) (redirects : List Redirect)
  | subshell (line : Nat) (body : Clause) (redirects : List Redirect)
  | background (line : Nat) (body : Clause)
  | pipeline (parts : List Clause) (waited : Bool)
  | sequence (first second : Clause)
  | both (first second : Clause)
  | either (first second : Clause)
  | negate (body : Clause)
  | choose (condition yes no : Clause)
  | loop (whileSuccess : Bool) (condition body : Clause)
  | each (line : Nat) (name : Text) (words : List (List Fragment)) (body : Clause)
  | select (line : Nat) (subject : List Fragment)
      (cases : List (List (List Fragment) × Clause))
  | define (line : Nat) (name : Text) (body : Clause)

end

/-- A word before anything in it has been replaced. -/
abbrev Template := List Fragment

/-- The template that stands for all parameters of a script, each one word. -/
def Template.allParameters : Template :=
  [.parameter true ['@'] .plain []]

/-- The text of a template in which nothing is quoted or replaced. -/
def Template.bare? : Template → Option Text
  | [.text false text] => some text
  | _ => none

/-- The text of a template, with everything that is replaced left out. -/
def Template.plainText (template : Template) : Text :=
  template.flatMap fun
    | .text _ text => text
    | _ => []

/-- Is anything in the template quoted? -/
def Template.hasQuotes (template : Template) : Bool :=
  template.any fun
    | .text quoted _ | .parameter quoted .. | .output quoted _ | .arithmetic quoted _ => quoted

/-- May the character begin a name? -/
def isNameStart (c : Char) : Bool :=
  c.isAlpha || c = '_'

/-- May the character stand in a name? -/
def isNameChar (c : Char) : Bool :=
  isNameStart c || c.isDigit

/-- Is the text a name that a variable can have? -/
def isName (text : Text) : Bool :=
  text.head?.any isNameStart && text.all isNameChar

/-- The name and the value of a word that sets a variable. -/
def assignment? : Template → Option (Text × Template)
  | .text false text :: rest =>
    let name := text.takeWhile (· != '=')
    match text.dropWhile (· != '=') with
    | '=' :: value =>
      if !isName name then none
      else some (name, if value = [] then rest else .text false value :: rest)
    | _ => none
  | _ => none

end Conch.Script
