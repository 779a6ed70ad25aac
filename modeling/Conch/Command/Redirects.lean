import Conch.Text.Blank

/-!
# Redirections of a command

The words `<` and `>` each claim the word after them as the path of a redirection.  `extract`
goes through the words once, from the left, and takes the claimed pairs out; a path is taken
whatever it looks like, so it may itself be one of the two symbols.
-/

namespace Conch

/-- The standard streams that can be redirected: input by `<`, and output by `>`. -/
inductive Direction where
  | input
  | output
  deriving DecidableEq, Repr

namespace Direction

/-- The word that announces a redirection. -/
def symbol : Direction → Word
  | input => ['<']
  | output => ['>']

/-- The direction that a word announces, if it is a symbol. -/
def ofWord? (w : Word) : Option Direction :=
  if w = input.symbol then some input
  else if w = output.symbol then some output
  else none

@[simp] theorem ofWord?_symbol (d : Direction) : ofWord? d.symbol = some d := by
  cases d <;> rfl

theorem ofWord?_eq_some_iff {w : Word} {d : Direction} : ofWord? w = some d ↔ w = d.symbol := by
  cases d <;> grind [ofWord?, Direction.symbol]

end Direction

/-- The targets of the redirections of one command: the path that standard input is read from, and
the one that standard output goes to. -/
structure Redirects where
  input : Option Word := none
  output : Option Word := none
  deriving DecidableEq, Repr

namespace Redirects

/-- Is nothing redirected? -/
def isEmpty (r : Redirects) : Bool :=
  r.input.isNone && r.output.isNone

/-- The target of one direction. -/
def get (r : Redirects) : Direction → Option Word
  | .input => r.input
  | .output => r.output

/-- The redirections with one target set. -/
def set (r : Redirects) (d : Direction) (path : Word) : Redirects :=
  match d with
  | .input => { r with input := some path }
  | .output => { r with output := some path }

@[simp] theorem get_set (r : Redirects) (d : Direction) (path : Word) :
    (r.set d path).get d = some path := by
  cases d <;> rfl

theorem get_set_of_ne (r : Redirects) {d e : Direction} (path : Word) (h : e ≠ d) :
    (r.set d path).get e = r.get e := by
  cases d <;> cases e <;> first | rfl | exact absurd rfl h

/-- What can be wrong with the redirections of a line: the symbol is the last word, or the stream is
redirected already. -/
inductive Fault where
  | missingPath (d : Direction)
  | repeated (d : Direction)
  deriving DecidableEq, Repr

/-- Take the redirections out of the words, after `found` has been taken out before them: the words
that are left, in order, and all redirections. -/
def extractAfter (found : Redirects) : List Word → Except Fault (List Word × Redirects)
  | [] => .ok ([], found)
  | [w] =>
    match Direction.ofWord? w with
    | none => .ok ([w], found)
    | some d => .error (.missingPath d)
  | w :: path :: rest =>
    match Direction.ofWord? w with
    | none => (extractAfter found (path :: rest)).map fun r => (w :: r.1, r.2)
    | some d =>
      if (found.get d).isSome then .error (.repeated d)
      else extractAfter (found.set d path) rest

/-- Take the redirections out of the words of a command. -/
def extract (words : List Word) : Except Fault (List Word × Redirects) :=
  extractAfter {} words

end Redirects

end Conch
