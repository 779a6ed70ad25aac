import Conch.Script.Word

/-!
# Tokens of scripts

A script is a series of tokens: words, operators, the beginnings of redirections and ends of
lines.  With the end of a line begin the texts that redirections before it want to read.

What a word is depends on its place.  Where a command begins it can be a reserved word, or an
alias, for which its text is put in front of what comes next; then the first word of that counts
in its place.
-/

namespace Conch.Script

open Reading

/-! ## Texts for redirections -/

/-- Read a text that a redirection wants. -/
def readDocument (clauses : ClauseReader) (document : Document) : Reading Unit := do
  let template ← readTemplate clauses (.document document)
  modify fun s => { s with documents := s.documents ++ [(document.index, template)] }

/-- Read the texts that begin with the line. -/
def readDocuments (clauses : ClauseReader) : Reading Unit := do
  let awaited := (← get).awaited
  modify fun s => { s with awaited := [] }
  awaited.forM (readDocument clauses)

/-! ## Tokens -/

/-- Read an operator that begins with a character. -/
def readOperator (c : Char) : Reading Token := do
  match c with
  | '&' => pure (.operator (if ← accept '&' then "&&" else "&"))
  | '|' => pure (.operator (if ← accept '|' then "||" else "|"))
  | ';' => pure (.operator (if ← accept ';' then ";;" else ";"))
  | '(' => pure (.operator "(")
  | _ => pure (.operator ")")

/-- Read the operator of a redirection that begins with a character. -/
def readRedirect (descriptor : Option Nat) (c : Char) : Reading Token := do
  skip
  let operator ←
    if c = '<' then do
      if ← accept '<' then pure (if ← accept '-' then "<<-" else "<<")
      else if ← accept '&' then pure "<&"
      else if ← accept '>' then pure "<>"
      else pure "<"
    else do
      if ← accept '>' then pure ">>"
      else if ← accept '&' then pure ">&"
      else if ← accept '|' then pure ">|"
      else pure ">"
  pure (.redirect descriptor operator)

/-- The descriptor that a word names, if a redirection follows it. -/
def descriptor? (template : Template) : Option Nat :=
  match Template.bare? template with
  | some [c] => if c.isDigit then some (c.toNat - '0'.toNat) else none
  | _ => none

/-- Read a token from the text. -/
def scanToken (clauses : ClauseReader) (kind : WordKind) : Reading Token := do
  let _ ← takeWhile fun c => c = ' ' || c = '\t'
  match ← peek with
  | none =>
    readDocuments clauses
    pure .ending
  | some '#' =>
    let _ ← iterate (fun () => do
      match ← peekRaw with
      | none | some '\n' => pure (.inr ())
      | some _ =>
        skip
        pure (.inl ())) ()
    match ← peekRaw with
    | none => pure .ending
    | some _ =>
      skip
      readDocuments clauses
      pure .newline
  | some '\n' =>
    skip
    readDocuments clauses
    pure .newline
  | some c =>
    if c = '<' || c = '>' then readRedirect none c
    else if wordEnds.contains c then
      skip
      readOperator c
    else
      let template ← readTemplate clauses kind
      match descriptor? template, ← peekAfter with
      | some n, some c =>
        if c = '<' || c = '>' then readRedirect (some n) c else pure (.word template)
      | _, _ => pure (.word template)
where
  /-- The character after a word, if it is known yet. -/
  peekAfter : Reading (Option Char) := do
    pure (← get).rest.head?

/-- Take the token that was put back, or else the next one of the text, and say whether its being an
alias has not been settled. -/
def takeToken (clauses : ClauseReader) (kind : WordKind) : Reading (Token × Bool) := do
  match (← get).returned with
  | some token =>
    modify fun s => { s with returned := none }
    pure (token, false)
  | none =>
    modify Reader.forgetEnded
    pure (← scanToken clauses kind, true)

/-- Read a token.  What a word is depends on its place, and it stays so if the word is put back. -/
def readToken (clauses : ClauseReader) (place : Place := .argument) : Reading Token :=
  iterate (fun (place : Place) => do
    let (token, isNew) ← takeToken clauses (if place.isMark then .mark else .word)
    let s ← get
    let place := { place with replaces := place.replaces || (isNew && s.isPastBlank) }
    match token with
    | .newline => pure (if place.afterLines then .inl place else .inr token)
    | .word template =>
      match if isNew then Template.bare? template else none with
      | none => pure (.inr token)
      | some text =>
        let reserved := reservedWords.find? fun word => word.toList == text
        match if place.reserves then reserved else none with
        | some word => pure (.inr (.reserved word))
        | none =>
          match if place.replaces then s.replacement? text else none with
          | some value =>
            set (s.insert text value)
            pure (.inl place)
          | none => pure (.inr token)
    | _ => pure (.inr token)) place

/-- Put a token back. -/
def returnToken (token : Token) : Reading Unit :=
  modify fun s => { s with returned := some token }

end Conch.Script
