import Conch.Script.Arithmetic
import Conch.Script.Field
import Conch.Script.Runner

/-!
# What words stand for

In a word, a tilde at the beginning stands for a home directory, and parameters, the output of
clauses and the results of arithmetic take their places.  A word among the words of a command
can become any number of words; anywhere else it becomes one text.

The output of a clause comes from whoever runs clauses, so it is a parameter here.
-/

namespace Conch.Script

open Running

/-- What a parameter stands for: nothing, a text, or all parameters. -/
inductive ParameterValue where
  | unset
  | single (text : Text)
  | all (texts : List Text)
  deriving DecidableEq, Repr

/-- The value of a parameter. -/
def parameterValue (name : Text) : Running ParameterValue := do
  let r ← get
  match name with
  | ['?'] => pure (.single (Text.decimal r.status))
  | ['$'] => pure (.single r.pid.text.toList)
  | ['!'] =>
    pure (match r.lastBackground with
      | some pid => .single pid.text.toList
      | none => .unset)
  | ['#'] => pure (.single (Text.decimal r.parameters.length))
  | ['-'] => pure (.single (r.options.filter Char.isAlpha))
  | ['@'] | ['*'] => pure (.all r.parameters)
  | _ =>
    let value ←
      if name.all Char.isDigit then
        let k := Text.digitsValue name
        pure (if k = 0 then some r.name else r.parameters[k - 1]?)
      else value? name
    pure (match value with
      | some text => .single text
      | none => .unset)

/-- The characters that separate fields. -/
def separators : Running Text := do
  pure ((← value? "IFS".toList).getD usualSeparators)

/-- The character that stands between two parameters so that each is a field. -/
def border : Char := '\x00'

/-- What stands between all parameters.  Where a word can become many each parameter is a field,
unless quotation marks hold them together; anywhere else the first separator stands between them. -/
def glue (isWord quoted : Bool) (name : Text) : Running Text := do
  let separators := ← value? "IFS".toList
  let first := (separators.getD usualSeparators).take 1
  pure (if isWord && quoted && name = ['@'] then [border]
    else if isWord && !quoted then (if separators.isSome then [border] else [' '])
    else first)

/-- The text of a value, if there is one. -/
def ParameterValue.text? (glue : Text) : ParameterValue → Option Text
  | .unset => none
  | .single text => some text
  | .all texts => some (glue.intercalate texts)

/-- The glyphs of the text of a value; `begins` says that there is something quoted even if the text
is empty. -/
def valueGlyphs (quoted begins : Bool) (text : Text) : List Glyph :=
  let start : List Glyph := if quoted && begins then [.mark] else []
  start ++ text.flatMap fun c =>
    if c = border then .border :: start else [.char c quoted (!quoted)]

/-- The home directory that a tilde with a name behind it stands for. -/
def homeOf (user : Text) : Running (Option Text) := do
  if user = [] then value? "HOME".toList
  else pure (if user = "root".toList then some "/root".toList else none)

/-- The glyphs of text that is not quoted, with a tilde at its beginning replaced; `isWhole` says
that nothing follows the text, `splits` that the text separates fields. -/
def tildeGlyphs (isWhole splits : Bool) (text : Text) : Running (List Glyph) := do
  match text with
  | '~' :: rest =>
    let user := rest.takeWhile (· != Path.separator)
    let after := rest.drop user.length
    if after = [] && !isWhole then pure (Glyph.ofText false splits text)
    else match ← homeOf user with
      | some home => pure (Glyph.ofText true false home ++ Glyph.ofText false splits after)
      | none => pure (Glyph.ofText false splits text)
  | _ => pure (Glyph.ofText false splits text)

/-- The number that an expression comes to. -/
def compute (expression : Text) : Running Int64 := do
  let r ← get
  let lookup (name : Text) : Text :=
    ((r.bindings.lookup name).bind Variable.value).getD []
  let result := do
    let e ← Expression.read expression
    (e.evaluate lookup).run []
  match result with
  | .error (.malformed message) =>
    fail ("arithmetic expression: ".toList ++ message.toList ++ ": \"".toList ++
      expression ++ ['"'])
  | .error (.illegalNumber value) => fail ("Illegal number: ".toList ++ value)
  | .ok (value, given) =>
    given.reverse.forM fun entry => assign entry.1 (toString entry.2).toList
    pure value

variable (outputOf : Clause → Running Text)

/-- What the text of a word is for: whether it can become any number of words, and whether what is
not quoted separates fields. -/
structure Purpose where
  isWord : Bool
  splits : Bool := false
  deriving DecidableEq, Repr

mutual

/-- The glyphs of a fragment. -/
def expandFragment (purpose : Purpose) : Fragment → Running (List Glyph)
  | .text quoted text =>
    pure (if quoted then .mark :: Glyph.ofText true false text
      else Glyph.ofText false purpose.splits text)
  | .output quoted clause => do
    let text ← outputOf clause
    pure (Glyph.ofText quoted (!quoted) text)
  | .arithmetic quoted expression => do
    let glyphs ← expandTemplate ⟨false, false⟩ expression
    let value ← compute (Glyph.text glyphs)
    pure (Glyph.ofText quoted (!quoted) (toString value).toList)
  | .parameter quoted name change operand => do
    if name = [] then fail "Bad substitution".toList
    let value ← parameterValue name
    let isPlain := change matches .length | .ifSet _
    let text? := value.text? (← glue (purpose.isWord && !isPlain) quoted name)
    let text := text?.getD []
    let begins := name = ['@'] && !(value matches .all [])
    let glyphs := valueGlyphs quoted begins text
    let isMissing (orEmpty : Bool) : Bool :=
      text?.isNone || (orEmpty && text = [])
    let checkSet : Running Unit := do
      if text?.isNone && (← hasOption 'u') then fail (name ++ ": parameter not set".toList)
    let replacement := expandOperand { purpose with splits := !quoted } operand
    match change with
    | .plain => do
      checkSet
      pure glyphs
    | .length => do
      checkSet
      pure (Glyph.ofText quoted (!quoted) (Text.decimal (Utf8.size text)))
    | .orElse orEmpty => if isMissing orEmpty then replacement else pure glyphs
    | .ifSet orEmpty => if isMissing orEmpty then pure [] else replacement
    | .orAssign orEmpty =>
      if !isMissing orEmpty then pure glyphs
      else if !isName name then fail (name ++ ": bad variable name".toList)
      else do
        let text := Glyph.text (← expandOperand ⟨false, false⟩ operand)
        assign name text
        pure (valueGlyphs quoted false text)
    | .orFail orEmpty =>
      if !isMissing orEmpty then pure glyphs
      else do
        let text := Glyph.text (← expandOperand ⟨false, false⟩ operand)
        let text := if !operand.isEmpty then text
          else "parameter not set".toList ++ (if orEmpty then " or null".toList else [])
        fail (name ++ ": ".toList ++ text)
    | .cutEnd longest => do
      checkSet
      if text?.isNone then pure []
      else
        let pattern := Glyph.pattern (← expandOperand ⟨false, false⟩ operand)
        pure (valueGlyphs quoted begins (Pattern.cutEnd pattern longest text))
    | .cutStart longest => do
      checkSet
      if text?.isNone then pure []
      else
        let pattern := Glyph.pattern (← expandOperand ⟨false, false⟩ operand)
        pure (valueGlyphs quoted begins (Pattern.cutStart pattern longest text))

/-- The glyphs of an operand, with a tilde at its beginning replaced. -/
def expandOperand (purpose : Purpose) : List Fragment → Running (List Glyph)
  | .text false text :: rest => do
    let first ← tildeGlyphs rest.isEmpty purpose.splits text
    pure (first ++ (← expandTemplate purpose rest))
  | operand => expandTemplate purpose operand

/-- The glyphs of a template. -/
def expandTemplate (purpose : Purpose) : List Fragment → Running (List Glyph)
  | [] => pure []
  | fragment :: rest => do
    let first ← expandFragment purpose fragment
    let others ← expandTemplate purpose rest
    pure (first ++ others)

end

/-- The glyphs of a word, with a tilde at its beginning replaced. -/
def expandWord (isWord : Bool) (template : Template) : Running (List Glyph) :=
  expandOperand outputOf { isWord } template

/-- The words that come of a word of a command. -/
def expandWords (template : Template) : Running (List Text) := do
  let fields := Glyph.fields (← separators) (← expandWord outputOf true template)
  if (← hasOption 'f') || !fields.any Pattern.isGeneral then pure (fields.map Field.text)
  else
    let view ← look
    pure (fields.flatMap (Field.words view))

/-- The text that comes of a word where only one can stand. -/
def expandText (template : Template) : Running Text := do
  pure (Glyph.text (← expandWord outputOf false template))

/-- The text that comes of the value of an assignment: a tilde counts also behind a colon. -/
def expandValue (template : Template) : Running Text := do
  let parts (isLast : Bool) (text : Text) : Running Text := do
    let pieces := splitAt text
    let glyphs ← pieces.zipIdx.mapM fun (piece, k) =>
      tildeGlyphs (isLast || k + 1 < pieces.length) false piece
    pure ([':'].intercalate (glyphs.map Glyph.text))
  match template with
  | .text false text :: rest =>
    let first ← parts (rest = []) text
    pure (first ++ Glyph.text (← expandTemplate outputOf ⟨false, false⟩ rest))
  | _ => pure (Glyph.text (← expandTemplate outputOf ⟨false, false⟩ template))
where
  /-- The parts of a text between colons. -/
  splitAt : Text → List Text
    | [] => [[]]
    | ':' :: rest => [] :: splitAt rest
    | c :: rest =>
      match splitAt rest with
      | [] => [[c]]
      | part :: others => (c :: part) :: others

/-- The pattern that comes of a word. -/
def expandPattern (template : Template) : Running (List PatternChar) := do
  pure (Glyph.pattern (← expandWord outputOf false template))

end Conch.Script
