import Conch.Script.Reader

/-!
# Reading words of scripts

How a character of a word is read depends on the quotation marks around it, and on whether it
stands in an arithmetic expression.  An expression, and sometimes a parameter in braces, begins a
level of its own: quotation marks in it have nothing to do with those outside.  The end of a
level goes back to the one outside of it.

What is read is put together inside out: for each parameter in braces and each expression that
has been opened there is a `Piece` that remembers what came before it.

The text that a redirection reads is read like a word inside of quotation marks, but it goes on
to the line that ends it.
-/

namespace Conch.Script

open Reading

/-! ## Levels -/

/-- How characters are read: without quotation marks, between apostrophes, between quotation marks,
or as an arithmetic expression. -/
inductive Quoting where
  | bare
  | single
  | double
  | arithmetic
  deriving DecidableEq, Repr

/-- A level of a word: how characters are read, whether a parameter in braces has begun the level,
how many such parameters are open, how many of them were opened between quotation marks, and how
many parentheses are open.  If there is a single quotation mark inside of the parameters, a closing
brace stands for itself. -/
structure Level where
  quoting : Quoting
  isParameter : Bool := false
  braces : Nat := 0
  quotedBraces : Nat := 0
  isInner : Bool := false
  parentheses : Nat := 0
  deriving DecidableEq, Repr

/-- Does a backslash only quote some characters? -/
def Level.isDouble (level : Level) : Bool :=
  level.quoting = .double || level.quoting = .arithmetic

/-- What of a word has been opened: a parameter in braces, or an arithmetic expression. -/
inductive Opening where
  | parameter (name : Text) (change : Change)
  | arithmetic

/-- A part of a word that is being read; the characters and fragments that have been read come last
first.  A word and a text were not opened by anything; a part may be quoted as a whole, and a
quotation mark may have been opened in it. -/
structure Piece where
  opening : Option Opening
  isQuoted : Bool
  isMarked : Bool := false
  read : Template := []

namespace Piece

/-- Is what comes next quoted? -/
def quotes (piece : Piece) : Bool :=
  piece.isQuoted || piece.isMarked

/-- Add a character. -/
def add (quoted : Bool) (c : Char) (piece : Piece) : Piece :=
  match piece.read with
  | .text q text :: rest =>
    if q = quoted then { piece with read := .text q (c :: text) :: rest }
    else { piece with read := .text quoted [c] :: piece.read }
  | read => { piece with read := .text quoted [c] :: read }

/-- Add a fragment. -/
def push (fragment : Fragment) (piece : Piece) : Piece :=
  { piece with read := fragment :: piece.read }

/-- The template that has been read. -/
def template (piece : Piece) : Template :=
  piece.read.reverse.map fun
    | .text quoted text => .text quoted text.reverse
    | fragment => fragment

/-- Open or close quotation marks.  Where they open there is something quoted, if only an empty
text; but when they hold nothing but all parameters there may be none. -/
def toggle (piece : Piece) : Piece :=
  if piece.isMarked then
    let read := match piece.read with
      | .parameter quoted ['@'] .plain operand :: .text true [] :: before =>
        .parameter quoted ['@'] .plain operand :: before
      | read => read
    { piece with isMarked := false, read }
  else { piece with isMarked := true, read := .text true [] :: piece.read }

/-- Put what was opened last behind what came before it. -/
def close (inner outer : Piece) : Piece :=
  match inner.opening with
  | none => outer
  | some .arithmetic => outer.push (.arithmetic outer.quotes inner.template)
  | some (.parameter name change) =>
    outer.push (.parameter outer.quotes name change inner.template)

end Piece

/-- What ends a word or a text: a character that cannot stand in a word, where nothing is replaced
in a word that is to end a text, or the line that ends the text. -/
inductive WordKind where
  | word
  | mark
  | document (document : Document)
  deriving DecidableEq, Repr

/-- Is it a text? -/
def WordKind.isDocument : WordKind → Bool
  | .document _ => true
  | _ => false

/-- The state in which a word is read: the level and the part that are being read, those outside of
them, and whether a line begins here. -/
structure WordState where
  level : Level
  outerLevels : List Level := []
  piece : Piece
  outerPieces : List Piece := []
  atLineStart : Bool := true

namespace WordState

/-- The state at the beginning of a word or a text. -/
def start : WordKind → WordState
  | .word | .mark =>
    { level := ⟨.bare, false, 0, 0, false, 0⟩, piece := { opening := none, isQuoted := false } }
  | .document document =>
    { level := ⟨if document.replaces then .double else .single, false, 0, 0, false, 0⟩
      piece := { opening := none, isQuoted := true } }

/-- Change the part that is being read. -/
def change (f : Piece → Piece) (s : WordState) : WordState :=
  { s with piece := f s.piece, atLineStart := false }

/-- Add a character as it is read. -/
def add (c : Char) (s : WordState) : WordState :=
  let quoted := s.piece.quotes || s.level.quoting = .single || s.level.quoting = .double
  s.change (Piece.add quoted c)

/-- Add a character that stands for itself. -/
def addQuoted (c : Char) (s : WordState) : WordState :=
  s.change (Piece.add true c)

/-- Open or close quotation marks; in a text they make no difference. -/
def toggle (kind : WordKind) (s : WordState) : WordState :=
  if kind.isDocument then s.change id else s.change Piece.toggle

/-- Read characters in another way. -/
def setQuoting (quoting : Quoting) (s : WordState) : WordState :=
  { s with level := { s.level with quoting } }

/-- A double quotation mark inside of parameters: it opens or closes what is inside of them. -/
def flipInner (s : WordState) : WordState :=
  if s.level.braces = 0 then s
  else { s with level := { s.level with isInner := !s.level.isInner } }

/-- Begin a part. -/
def opened (opening : Opening) (isQuoted : Bool) (s : WordState) : WordState :=
  { s with
    piece := { opening := some opening, isQuoted }
    outerPieces := s.piece :: s.outerPieces
    atLineStart := false }

/-- End a part. -/
def closed (s : WordState) : WordState :=
  match s.outerPieces with
  | [] => s
  | outer :: others =>
    { s with piece := s.piece.close outer, outerPieces := others, atLineStart := false }

/-- Begin an arithmetic expression. -/
def openArithmetic (s : WordState) : WordState :=
  let s := s.opened .arithmetic true
  { s with level := { quoting := .arithmetic }, outerLevels := s.level :: s.outerLevels }

/-- Go back to the level outside. -/
def leaveLevel (s : WordState) : WordState :=
  match s.outerLevels with
  | [] => s
  | outer :: others => { s with level := outer, outerLevels := others }

/-- Does what is done with a parameter compare it with a pattern? -/
def isCut : Change → Bool
  | .cutEnd _ | .cutStart _ => true
  | _ => false

/-- Begin the operand of a parameter.  One that is a pattern is not quoted from outside. -/
def openParameter (name : Text) (change : Change) (s : WordState) : WordState :=
  let quoting : Quoting :=
    if isCut change then .bare
    else if s.level.quoting = .arithmetic then .double
    else s.level.quoting
  let own := quoting != s.level.quoting || s.level.isInner
  let s := s.opened (.parameter name change) (s.piece.quotes && !isCut change)
  let s := if own then
      { s with level := { quoting, isParameter := true }, outerLevels := s.level :: s.outerLevels }
    else s
  let level := s.level
  { s with level := { level with
      braces := level.braces + 1
      quotedBraces := if level.isDouble then level.quotedBraces + 1 else level.quotedBraces } }

/-- A closing brace: it ends a parameter, if there is one. -/
def closeBrace (s : WordState) : WordState :=
  let level := s.level
  if level.isInner || level.braces = 0 then s.add '\x7d'
  else
    let left := { s with level := { level with braces := level.braces - 1 } }.closed
    if level.braces = 1 && level.isParameter then left.leaveLevel
    else { left with level := { left.level with quotedBraces := level.quotedBraces - 1 } }

end WordState

/-! ## What begins with a dollar sign -/

/-- The names of the parameters that are one special character. -/
def specialNames : List Char :=
  ['$', '?', '#', '@', '*', '!', '-']

/-- May a character be the whole name of a parameter? -/
def isSpecialName (c : Char) : Bool :=
  specialNames.contains c || c.isDigit

/-- What stands in the braces of a parameter before its operand: a name and nothing after it, a name
and what is done with it, or something that makes no sense. -/
inductive BraceHead where
  | whole (name : Text)
  | changed (name : Text) (change : Change)
  | senseless

/-- Pass a character in braces.  The end of a line there does not count as one. -/
def pass : Reading Unit :=
  modify fun s => { s with rest := s.rest.drop 1 }

/-- Take a character in braces. -/
def takePassing : Reading (Option Char) := do
  let c ← peek
  pass
  pure c

/-- Read what is to be done with a parameter, of which the first character has been taken. -/
def readChange (name : Text) (c : Option Char) : Reading BraceHead := do
  let simple (orEmpty : Bool) : Option Char → BraceHead
    | some '-' => .changed name (.orElse orEmpty)
    | some '=' => .changed name (.orAssign orEmpty)
    | some '?' => .changed name (.orFail orEmpty)
    | some '+' => .changed name (.ifSet orEmpty)
    | some '\x7d' => if orEmpty then .changed name .plain else .whole name
    | _ => .senseless
  match c with
  | some ':' => pure (simple true (← takePassing))
  | some '%' => pure (.changed name (.cutEnd (← accept '%')))
  | some '#' => pure (.changed name (.cutStart (← accept '#')))
  | c => pure (simple false c)

/-- Read the name of a parameter that is made of letters or digits. -/
def readName : Reading Text := do
  match ← peek with
  | some c => if isNameStart c then takeWhile isNameChar else takeWhile Char.isDigit
  | none => pure []

/-- The length of a parameter, if the braces end here. -/
def lengthHead (name : Text) : Reading BraceHead := do
  pure (if (← peek) = some '\x7d' then .changed name .length else .senseless)

/-- Read what stands in braces up to the operand. -/
def readBraceHead : Reading BraceHead := do
  let first ← peek
  if first.any fun c => isNameStart c || c.isDigit then
    let name ← readName
    readChange name (← takePassing)
  else if first = some '\x7d' then pure .senseless
  else
    pass
    let second ← peek
    if first = some '#' then
      if second.any isNameChar then lengthHead (← readName)
      else
        pass
        match second with
        | none => pure .senseless
        | some c =>
          if c = '\x7d' || (← peek) != some '\x7d' then readChange ['#'] second
          else if isSpecialName c then lengthHead [c]
          else pure .senseless
    else match first with
      | none => pure .senseless
      | some c => if isSpecialName c then readChange [c] (← takePassing) else pure .senseless

/-- Read what comes after a dollar sign. -/
def readDollar (clauses : ClauseReader) (kind : WordKind) (s : WordState) : Reading WordState := do
  if kind = .mark then pure (s.add '$')
  else
    match ← peek with
    | some '(' =>
      skip
      if ← accept '(' then pure s.openArithmetic
      else pure (s.change (Piece.push (.output s.piece.quotes (← apart (clauses .enclosed)))))
    | some '\x7b' =>
      skip
      match ← readBraceHead with
      | .whole name => pure (s.change (Piece.push (.parameter s.piece.quotes name .plain [])))
      | .changed name change => pure (s.openParameter name change)
      | .senseless => pure (s.openParameter [] .plain)
    | some c =>
      if isNameStart c then
        let name ← takeWhile isNameChar
        pure (s.change (Piece.push (.parameter s.piece.quotes name .plain [])))
      else if isSpecialName c then
        skip
        pure (s.change (Piece.push (.parameter s.piece.quotes [c] .plain [])))
      else pure (s.change (Piece.add s.piece.quotes '$'))
    | none => pure (s.change (Piece.add s.piece.quotes '$'))

/-! ## Other characters -/

/-- Read text up to a backquote; some characters lose the backslash in front of them. -/
def readBackquoted (quoted : Bool) : Reading Text := do
  let text ← iterate (fun (text : Text) => do
    match ← next with
    | none => malformed "EOF in backquote substitution"
    | some '\x60' => pure (.inr text)
    | some '\\' =>
      match ← peekRaw with
      | some c =>
        skip
        if ['$', '\x60', '\\'].contains c || (quoted && c = '"') then pure (.inl (c :: text))
        else pure (.inl (c :: '\\' :: text))
      | none => pure (.inl ('\\' :: text))
    | some c => pure (.inl (c :: text))) []
  pure text.reverse

/-- Read what comes after a backslash. -/
def readEscaped (kind : WordKind) (s : WordState) : Reading WordState := do
  match ← peekRaw with
  | none => pure (s.addQuoted '\\')
  | some c =>
    skip
    let level := s.level
    let loses := ['\\', '\x60', '$'].contains c
      || (c = '"' && !(kind.isDocument && level.braces = 0))
      || (c = '\x7d' && level.braces > 0)
    pure (if level.isDouble && !loses then (s.addQuoted '\\').addQuoted c else s.addQuoted c)

/-- A closing quotation mark. -/
def closeMark (kind : WordKind) (c : Char) (s : WordState) : WordState :=
  if kind.isDocument && s.level.braces = 0 then s.add c
  else
    let s := if s.level.quotedBraces = 0 then s.setQuoting .bare else s
    (if c = '"' then s.flipInner else s).toggle kind

/-- The characters that end a word. -/
def wordEnds : List Char :=
  [' ', '\t', '\n', ';', '&', '|', '<', '>', '(', ')']

/-- Has a text come to the line that ends it?  Then that is taken.  Tabs at the beginning of the
line are left out if they are not wanted. -/
def takeEnd : WordKind → Reading Bool
  | .word | .mark => pure false
  | .document document => do
    if document.replaces then joinLines
    if document.dropsTabs then
      let _ ← takeWhile (· = '\t')
    let s ← get
    if !s.complete && !s.rest.contains '\n' then throw .incomplete
    if s.rest.takeWhile (· != '\n') = document.mark && s.rest != [] then
      modify fun s => { s with
        rest := s.rest.drop (document.mark.length + 1)
        line := if document.mark.length < s.rest.length then s.line + 1 else s.line }
      pure true
    else pure false

/-- Take in a character that belongs to a word; it has been passed. -/
def readInside (clauses : ClauseReader) (kind : WordKind) (c : Char) (s : WordState) :
    Reading WordState := do
  let level := s.level
  match level.quoting, c with
  | _, '\n' => pure { s.add c with atLineStart := true }
  | .single, '\'' => pure (closeMark kind c s)
  | .single, _ => pure (s.add c)
  | _, '\\' => readEscaped kind s
  | _, '$' => readDollar clauses kind s
  | _, '\x60' =>
    if kind = .mark then pure (s.add c)
    else
      let text ← readBackquoted level.isDouble
      let clause ← within 1 text (clauses .items)
      pure (s.change (Piece.push (.output s.piece.quotes clause)))
  | _, '\x7d' => pure s.closeBrace
  | .bare, '\'' => pure ((s.setQuoting .single).toggle kind)
  | .bare, '"' => pure ((s.setQuoting .double).flipInner.toggle kind)
  | .double, '"' => pure (closeMark kind c s)
  | .arithmetic, '(' =>
    pure { s.add c with level := { level with parentheses := level.parentheses + 1 } }
  | .arithmetic, ')' =>
    if level.parentheses > 0 then
      pure { s.add c with level := { level with parentheses := level.parentheses - 1 } }
    else if ← accept ')' then pure s.closed.leaveLevel
    else pure (s.add c)
  | _, _ => pure (s.add c)

/-- Read a character of a word, or find its end. -/
def readChar (clauses : ClauseReader) (kind : WordKind) (s : WordState) :
    Reading (WordState ⊕ Template) := do
  let ends ← if s.atLineStart then takeEnd kind else pure false
  if ends then finish s
  else
    let level := s.level
    let next ← if level.quoting = .single then peekRaw else peek
    match next with
    | none => finish s
    | some c =>
      if level.quoting = .bare && level.braces = 0 && wordEnds.contains c then finish s
      else
        skip
        pure (.inl (← readInside clauses kind c s))
where
  /-- End a word or a text. -/
  finish (s : WordState) : Reading (WordState ⊕ Template) := do
    if s.level.quoting = .arithmetic then malformed "Missing '))'"
    if s.level.quoting != .bare && !kind.isDocument then malformed "Unterminated quoted string"
    if s.level.braces > 0 then malformed "Missing '\x7d'"
    pure (.inr s.piece.template)

/-- Read a word or a text. -/
def readTemplate (clauses : ClauseReader) (kind : WordKind) : Reading Template :=
  iterate (readChar clauses kind) (WordState.start kind)

end Conch.Script
