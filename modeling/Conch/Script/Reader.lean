import Conch.Script.Clause

/-!
# Reading scripts

A script is read from a text of which more may still come.  Whoever runs it reads one clause,
runs it, and reads on, so a reader that gets to the end of what is there gives up and is asked
again when there is more; only when nothing more will come is the end of the text the end of
the script.

Words and clauses are made of each other, since a word may hold a clause whose output takes its
place.  So what reads words has a `ClauseReader` as a parameter.

Where a command may begin a word can be an alias, and the text it stands for is put in front of
the text ahead.  While that text is being read the alias is not replaced again, so there is an
end to it: no alias is inside of itself.
-/

namespace Conch.Script

/-- The words that can have a meaning of their own. -/
def reservedWords : List String :=
  ["!", "case", "do", "done", "elif", "else", "esac", "fi", "for", "if", "in", "then", "until",
    "while", "\x7b", "\x7d"]

/-- What a token is: a word, a word that has its own meaning where it stands, an operator, the
beginning of a redirection with the descriptor in front of it, the end of a line, or the end of the
script. -/
inductive Token where
  | word (template : Template)
  | reserved (text : String)
  | operator (text : String)
  | redirect (descriptor : Option Nat) (operator : String)
  | newline
  | ending

/-- A text in the script that a redirection wants to read: its number, the line that ends it,
whether parameters in it are replaced, and whether tabs at the beginning of its lines are left
out. -/
structure Document where
  index : Nat
  mark : Text
  replaces : Bool
  dropsTabs : Bool
  deriving DecidableEq, Repr

/-- What a word can be where it stands, if not just a word: a reserved word, an alias, or the mark
that ends a text.  Ends of lines before it may be passed over. -/
structure Place where
  afterLines : Bool := false
  reserves : Bool := false
  replaces : Bool := false
  isMark : Bool := false
  deriving DecidableEq, Repr

namespace Place

/-- Among the words of a command. -/
def argument : Place := {}

/-- At the beginning of a command, but after something that is part of it. -/
def inCommand : Place := { replaces := true }

/-- Where a command begins. -/
def command : Place := { reserves := true, replaces := true }

/-- Where a command begins, perhaps on a later line. -/
def laterCommand : Place := { afterLines := true, reserves := true, replaces := true }

/-- Where a pattern of a selection begins. -/
def pattern : Place := { afterLines := true, reserves := true }

/-- Where the mark is named that ends a text. -/
def mark : Place := { isMark := true }

end Place

/-- A text that has taken the place of an alias, with how much text comes after it.  The next word
can be an alias wherever it stands if the text ends in a blank. -/
structure Insertion where
  name : Text
  mark : Nat
  endsBlank : Bool
  deriving DecidableEq, Repr

/-- Why reading stops: more text is needed, or the script is malformed. -/
inductive Fault where
  | incomplete
  | malformed (line : Nat) (message : String)
  deriving DecidableEq, Repr

/-- The state of a reader: the text ahead and whether nothing comes after it, the number of the
line, and a token that was read and put back.  It keeps the texts that begin with the next line,
those that have been read and how many there have been; and the texts that aliases stand for, those
that have taken the place of aliases, the last one first, and the aliases that are not replaced. -/
structure Reader where
  rest : Text
  complete : Bool
  line : Nat := 1
  returned : Option Token := none
  awaited : List Document := []
  documents : List (Nat × Template) := []
  documentCount : Nat := 0
  aliases : List (Text × Text) := []
  insertions : List Insertion := []
  held : List Text := []

namespace Reader

/-- Put more text behind what there is. -/
def append (s : Reader) (text : Text) : Reader :=
  { s with
    rest := s.rest ++ text
    insertions := s.insertions.map fun insertion =>
      { insertion with mark := insertion.mark + text.length } }

/-- A bound for how much text there is when all aliases have been replaced: each one can make the
text longer once by the length of what it stands for. -/
def bound (s : Reader) : Nat :=
  s.aliases.foldl (fun n entry => n * (entry.2.length + 1)) (s.rest.length + 1)

/-- The aliases in whose text the reader is. -/
def active (s : Reader) : List Text :=
  s.held ++ (s.insertions.filter fun insertion => insertion.mark ≤ s.rest.length).map Insertion.name

/-- The text that takes the place of a word. -/
def replacement? (s : Reader) (word : Text) : Option Text :=
  if s.active.contains word then none else s.aliases.lookup word

/-- Put the text that an alias stands for in front. -/
def insert (s : Reader) (name text : Text) : Reader :=
  if text = [] then s
  else
    let endsBlank := text.getLast?.any fun c => c = ' ' || c = '\t'
    { s with
      rest := text ++ s.rest
      insertions := ⟨name, s.rest.length, endsBlank⟩ :: s.insertions }

/-- Forget the texts that end here or have ended before. -/
def forgetEnded (s : Reader) : Reader :=
  { s with insertions := s.insertions.filter fun insertion => insertion.mark < s.rest.length }

/-- Has the reader got to the end of a text that ends with a blank? -/
def isPastBlank (s : Reader) : Bool :=
  s.insertions.any fun insertion => insertion.endsBlank && s.rest.length ≤ insertion.mark

end Reader

/-- Reading from a script. -/
abbrev Reading (α : Type) := StateT Reader (Except Fault) α

/-- The clauses that can stand next to each other: those of one line; those up to a word that ends
them, of which there is at least one in a body and may be none among items; those up to a closing
parenthesis, which is taken along; or just one. -/
inductive Extent where
  | line
  | body
  | items
  | enclosed
  | single
  deriving DecidableEq, Repr

/-- A reader of clauses. -/
abbrev ClauseReader := Extent → Reading Clause

namespace Reading

/-- Give up on a malformed script. -/
def malformed {α : Type} (message : String) : Reading α := do
  throw (.malformed (← get).line s!"Syntax error: {message}")

/-- Leave out the ends of lines that a backslash takes away. -/
def joinLines : Reading Unit := do
  let s ← get
  set { s with
    rest := dropJoints s.rest.length s.rest
    line := s.line + (s.rest.length - (dropJoints s.rest.length s.rest).length) / 2 }
where
  /-- Leave out joints at the beginning of a text. -/
  dropJoints : Nat → Text → Text
    | n + 1, '\\' :: '\n' :: rest => dropJoints n rest
    | _, rest => rest

/-- The next character as it is. -/
def peekRaw : Reading (Option Char) := do
  let s ← get
  match s.rest with
  | c :: _ => pure (some c)
  | [] => if s.complete then pure none else throw .incomplete

/-- The next character, after joining lines. -/
def peek : Reading (Option Char) := do
  joinLines
  let s ← get
  if s.rest = ['\\'] && !s.complete then throw .incomplete
  peekRaw

/-- Go past a character. -/
def skip : Reading Unit :=
  modify fun s =>
    { s with
      rest := s.rest.drop 1
      line := if s.rest.head? = some '\n' then s.line + 1 else s.line }

/-- Take the next character, after joining lines. -/
def next : Reading (Option Char) := do
  let c ← peek
  skip
  pure c

/-- Go past the next character if it is the given one. -/
def accept (c : Char) : Reading Bool := do
  if (← peek) = some c then
    skip
    pure true
  else pure false

/-- The characters that come next and have a property. -/
def takeWhile (p : Char → Bool) : Reading Text := do
  loop p ((← get).rest.length + 1)
where
  /-- Take characters one by one. -/
  loop (p : Char → Bool) : Nat → Reading Text
    | 0 => pure []
    | n + 1 => do
      match ← peek with
      | some c =>
        if p c then
          skip
          pure (c :: (← loop p n))
        else pure []
      | none => pure []

/-- Do something again and again until it gives a result.  Each time takes at least one character,
or else is the last. -/
def iterate {σ α : Type} (step : σ → Reading (σ ⊕ α)) (s : σ) : Reading α := do
  loop step (2 * (← get).bound + 8) s
where
  /-- Do it at most so many times. -/
  loop {σ α : Type} (step : σ → Reading (σ ⊕ α)) : Nat → σ → Reading α
    | 0, _ => malformed "end of file unexpected"
    | n + 1, s => do
      match ← step s with
      | .inl s => loop step n s
      | .inr a => pure a

/-- Read from another text, all of which is there; its lines are counted from a number on. -/
def within {α : Type} (line : Nat) (text : Text) (action : Reading α) : Reading α := do
  let s ← get
  set { s with
    rest := text, complete := true, line, returned := none, awaited := [], insertions := []
    held := s.active }
  let a ← action
  modify fun s' => { s' with
    rest := s.rest, complete := s.complete, line := s.line, returned := s.returned,
    awaited := s.awaited, insertions := s.insertions, held := s.held }
  pure a

/-- Read something in between, apart from what the reader is about to read. -/
def apart {α : Type} (action : Reading α) : Reading α := do
  let s ← get
  set { s with returned := none, awaited := [] }
  let a ← action
  modify fun s' => { s' with returned := s.returned, awaited := s.awaited }
  pure a

end Reading

end Conch.Script
