import Conch.Script.Token

/-!
# The grammar of scripts

A script is read line by line.  A line holds lists of pipelines of commands; a command is
simple, or made of other clauses between reserved words.  A reserved word counts as such only
where a command may begin or where the clause around it needs it.

`readLineOf` reads what one line begins, `readClausesWithin` ties words and clauses together.  Their
depth is bounded by the length of the text, aliases replaced, since each clause inside of another
one takes at least one character.
-/

namespace Conch.Script

open Reading

/-- The builtin commands of which an error ends the script. -/
def specialBuiltins : List String :=
  [".", ":", "break", "continue", "eval", "exec", "exit", "export", "local", "readonly", "return",
    "set", "shift", "times", "trap", "unset"]

namespace Token

/-- Is it this operator or reserved word? -/
def isText (token : Token) (text : String) : Bool :=
  match token with
  | .operator shown | .reserved shown => shown == text
  | _ => false

/-- How a token is named in a report. -/
def shown (token : Token) : String :=
  match token with
  | .ending => "end of file"
  | .newline => "newline"
  | .redirect .. => "redirection"
  | .operator text | .reserved text => s!"\"{text}\""
  | .word _ => "word"

/-- Does it end a list of clauses? -/
def endsList (token : Token) : Bool :=
  match token with
  | .ending => true
  | .operator text => text == ")" || text == ";;"
  | .reserved text => ["do", "done", "elif", "else", "esac", "fi", "then", "\x7d"].contains text
  | _ => false

end Token

/-- How much of a report about a token is shown. -/
def reportLimit : Nat := 63

/-- Give up on a script because of a token. -/
def unexpected {α : Type} (token : Token) (expected : Option String) : Reading α :=
  let report := match expected with
    | some text => s!"{token.shown} unexpected (expecting {text})"
    | none => s!"{token.shown} unexpected"
  malformed (report.take reportLimit).toString

/-- Go past an operator or reserved word that has to be there. -/
def expect (clauses : ClauseReader) (text : String) (place : Place := .argument) :
    Reading Unit := do
  let token ← readToken clauses place
  unless token.isText text do unexpected token (some s!"\"{text}\"")

/-- Read a word. -/
def readWord (clauses : ClauseReader) (place : Place := .argument) : Reading Template := do
  match ← readToken clauses place with
  | .word template => pure template
  | token => unexpected token none

/-! ## Redirections -/

/-- Read the target of a redirection. -/
def readTarget (clauses : ClauseReader) (descriptor : Option Nat) (operator : String) :
    Reading Redirect := do
  let isDocument := operator = "<<" || operator = "<<-"
  let target ← readWord clauses (if isDocument then .mark else .argument)
  let reading := descriptor.getD 0
  let writing := descriptor.getD 1
  let document (dropsTabs : Bool) : Reading Redirect := do
    let s ← get
    let document : Document :=
      { index := s.documentCount
        mark := Template.plainText target
        replaces := !Template.hasQuotes target
        dropsTabs }
    set { s with documentCount := s.documentCount + 1, awaited := s.awaited ++ [document] }
    pure (.mk reading (.document document.index) target)
  match operator with
  | "<" => pure (.mk reading .input target)
  | "<>" => pure (.mk reading .update target)
  | "<&" => pure (.mk reading .duplicate target)
  | "<<" => document false
  | "<<-" => document true
  | ">>" => pure (.mk writing .append target)
  | ">&" => pure (.mk writing .duplicate target)
  | ">|" => pure (.mk writing .replace target)
  | _ => pure (.mk writing .output target)

/-- Read the redirections behind a clause.  Without any, what comes next can be a reserved word. -/
def readRedirects (clauses : ClauseReader) : Reading (List Redirect) :=
  iterate (fun (place, redirects) => do
    match ← readToken clauses place with
    | .redirect descriptor operator =>
      pure (.inl (.argument, redirects ++ [← readTarget clauses descriptor operator]))
    | token =>
      returnToken token
      pure (.inr redirects)) (Place.command, [])

/-! ## Commands -/

/-- The parts of a simple command: the variables it sets, its words and its redirections. -/
structure Parts where
  assignments : List (Text × Template) := []
  words : List Template := []
  redirects : List Redirect := []

/-- Read the definition of a function, after its name and an opening parenthesis. -/
def readDefinition (clauses : ClauseReader) (line : Nat) (name : Template) : Reading Clause := do
  expect clauses ")"
  let name := Template.plainText name
  if !isName name || specialBuiltins.contains (String.ofList name) then
    malformed "Bad function name"
  pure (.define line name (← clauses .single))

/-- Read a simple command, or the definition of a function. -/
def readSimple (clauses : ClauseReader) : Reading Clause := do
  let line := (← get).line
  iterate (fun (parts : Parts) => do
    match ← readToken clauses (if parts.words.isEmpty then .inCommand else .argument) with
    | .word template =>
      match if parts.words.isEmpty then assignment? template else none with
      | some assignment =>
        pure (.inl { parts with assignments := parts.assignments ++ [assignment] })
      | none => pure (.inl { parts with words := parts.words ++ [template] })
    | .redirect descriptor operator =>
      let redirect ← readTarget clauses descriptor operator
      pure (.inl { parts with redirects := parts.redirects ++ [redirect] })
    | token =>
      match token.isText "(", parts with
      | true, ⟨[], [name], []⟩ => pure (.inr (← readDefinition clauses line name))
      | _, _ =>
        returnToken token
        pure (.inr (.simple line parts.assignments parts.words parts.redirects))) {}

/-- Read a condition and what is done if it holds. -/
def readBranch (clauses : ClauseReader) : Reading (Clause × Clause) := do
  let condition ← clauses .body
  expect clauses "then"
  pure (condition, ← clauses .body)

/-- Read a choice, after its first word. -/
def readChoice (clauses : ClauseReader) : Reading Clause := do
  let first ← readBranch clauses
  let (branches, otherwise) ← iterate (fun branches => do
    let token ← readToken clauses
    if token.isText "elif" then
      pure (.inl (branches ++ [← readBranch clauses]))
    else if token.isText "else" then
      pure (.inr (branches, ← clauses .body))
    else
      returnToken token
      pure (.inr (branches, Clause.skip))) [first]
  expect clauses "fi"
  pure (branches.foldr (fun branch otherwise => .choose branch.1 branch.2 otherwise) otherwise)

/-- Read a loop, after its first word. -/
def readLoop (clauses : ClauseReader) (whileSuccess : Bool) : Reading Clause := do
  let condition ← clauses .body
  expect clauses "do"
  let body ← clauses .body
  expect clauses "done"
  pure (.loop whileSuccess condition body)

/-- Read the words that a loop goes through. -/
def readItems (clauses : ClauseReader) : Reading (List Template) :=
  iterate (fun words => do
    match ← readToken clauses with
    | .word template => pure (.inl (words ++ [template]))
    | .newline => pure (.inr words)
    | token => if token.isText ";" then pure (.inr words) else unexpected token none) []

/-- Read a loop through words, after its first word. -/
def readEach (clauses : ClauseReader) : Reading Clause := do
  let line := (← get).line
  let name ← match ← readToken clauses with
    | .word template => pure ((Template.bare? template).filter isName)
    | _ => pure none
  match name with
  | none => malformed "Bad for loop variable"
  | some name =>
    let token ← readToken clauses .laterCommand
    let words ←
      if token.isText "in" then readItems clauses
      else do
        unless token.isText ";" do returnToken token
        pure [Template.allParameters]
    expect clauses "do" .laterCommand
    let body ← clauses .body
    expect clauses "done"
    pure (.each line name words body)

/-- The pattern that a token is; one that is no word matches nothing but the empty text. -/
def patternOf : Token → Template
  | .word template => template
  | .reserved text => [.text false text.toList]
  | _ => []

/-- Read the patterns of a case, the first of which has been read. -/
def readPatterns (clauses : ClauseReader) (first : Token) : Reading (List Template) :=
  iterate (fun patterns => do
    let token ← readToken clauses
    if token.isText "|" then pure (.inl (patterns ++ [patternOf (← readToken clauses)]))
    else if token.isText ")" then pure (.inr patterns)
    else unexpected token (some "\")\"")) [patternOf first]

/-- Read a selection among cases, after its first word. -/
def readSelection (clauses : ClauseReader) : Reading Clause := do
  let line := (← get).line
  let subject ← match ← readToken clauses with
    | .word template => pure template
    | token => unexpected token (some "word")
  expect clauses "in" .laterCommand
  let cases ← iterate (fun (cases : List (List Template × Clause)) => do
    let token ← readToken clauses .pattern
    if token.isText "esac" then pure (.inr cases)
    else
      let first ← if token.isText "(" then readToken clauses else pure token
      let patterns ← readPatterns clauses first
      let cases := cases ++ [(patterns, ← clauses .items)]
      let token ← readToken clauses .pattern
      if token.isText ";;" then pure (.inl cases)
      else if token.isText "esac" then pure (.inr cases)
      else unexpected token (some "\";;\"")) []
  pure (.select line subject cases)

/-- Read a command. -/
def readCommand (clauses : ClauseReader) (place : Place := .argument) : Reading Clause := do
  let token ← readToken clauses place
  let line := (← get).line
  let redirected (clause : Clause) : Reading Clause := do
    match ← readRedirects clauses with
    | [] => pure clause
    | redirects => pure (.redirected line clause redirects)
  match token with
  | .reserved "if" => redirected (← readChoice clauses)
  | .reserved "while" => redirected (← readLoop clauses true)
  | .reserved "until" => redirected (← readLoop clauses false)
  | .reserved "for" => redirected (← readEach clauses)
  | .reserved "case" => redirected (← readSelection clauses)
  | .reserved "\x7b" =>
    let body ← clauses .body
    expect clauses "\x7d"
    redirected body
  | .operator "(" =>
    let body ← clauses .body
    expect clauses ")"
    pure (.subshell line body (← readRedirects clauses))
  | .word _ | .redirect .. =>
    returnToken token
    readSimple clauses
  | _ => unexpected token none

/-! ## Lists of commands -/

/-- Read a pipeline. -/
def readPipeline (clauses : ClauseReader) (place : Place := .argument) : Reading Clause := do
  let token ← readToken clauses place
  let negated := token.isText "!"
  unless negated do returnToken token
  let first ← readCommand clauses .command
  let parts ← iterate (fun parts => do
    let token ← readToken clauses
    if token.isText "|" then
      pure (.inl (parts ++ [← readCommand clauses .laterCommand]))
    else
      returnToken token
      pure (.inr parts)) [first]
  let clause := match parts with
    | [clause] => clause
    | parts => .pipeline parts true
  pure (if negated then .negate clause else clause)

/-- Read pipelines of which each but the first depends on what came of those before. -/
def readAndOr (clauses : ClauseReader) : Reading Clause := do
  let first ← readPipeline clauses
  iterate (fun clause => do
    let token ← readToken clauses
    if token.isText "&&" then
      pure (.inl (.both clause (← readPipeline clauses .laterCommand)))
    else if token.isText "||" then
      pure (.inl (.either clause (← readPipeline clauses .laterCommand)))
    else
      returnToken token
      pure (.inr clause)) first

/-- The clause as one that is not waited for. -/
def Clause.inBackground (line : Nat) : Clause → Clause
  | .pipeline parts _ => .pipeline parts false
  | clause => .background line clause

/-- Read a list of clauses. -/
def readList (clauses : ClauseReader) (extent : Extent) : Reading Clause :=
  iterate (fun (before : Option Clause) => do
    let token ← readToken clauses (if extent = .line then .command else .laterCommand)
    match token with
    | .newline => pure (.inr (before.getD .skip))
    | .ending =>
      returnToken token
      pure (.inr (before.getD .skip))
    | _ =>
      returnToken token
      let mayEnd := extent = .items || (extent = .body && before.isSome)
      if mayEnd && token.endsList then
        return .inr (before.getD .skip)
      let clause ← readAndOr clauses
      let token ← readToken clauses
      let line := (← get).line
      let clause := if token.isText "&" then clause.inBackground line else clause
      let read := match before with
        | none => clause
        | some before => .sequence before clause
      match token with
      | .newline | .ending =>
        returnToken token
        pure (.inl (some read))
      | _ =>
        if token.isText "&" || token.isText ";" then pure (.inl (some read))
        else if extent = .line then unexpected token none
        else
          returnToken token
          pure (.inr read)) none

/-- Read clauses. -/
def readClauses (clauses : ClauseReader) : Extent → Reading Clause
  | .single => readCommand clauses .laterCommand
  | .enclosed => do
    let clause ← readList clauses .items
    expect clauses ")"
    pure clause
  | extent => readList clauses extent

/-- Read clauses that are at most so deep inside of each other. -/
def readClausesWithin : (depth : Nat) → ClauseReader
  | 0 => fun _ => malformed "too deep"
  | depth + 1 => fun extent => readClauses (readClausesWithin depth) extent

/-- What comes of reading a line: there is none, or a clause, with whether the script ends with
it. -/
inductive Line where
  | none
  | clause (clause : Clause) (isLast : Bool)

/-- Read what the next line begins; a clause may go on through more lines. -/
def readLineOf : Reading Line := do
  let clause ← readClausesWithin ((← get).bound + 2) .line
  match clause, (← get).returned with
  | .skip, some .ending => pure .none
  | clause, some .ending => pure (.clause clause true)
  | clause, _ => pure (.clause clause false)

end Conch.Script
