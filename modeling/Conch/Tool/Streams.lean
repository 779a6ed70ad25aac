import Conch.Files.Path
import Conch.Script.Pattern
import Conch.Tool.Options
import Conch.Tool.Rendering

/-!
# Programs that read and write streams

These programs copy what they read, or a part of it, or say something about it.  They read the
files that are named and otherwise standard input.  One that needs only the beginning of its
input gives the rest back if the input is a file, so that whoever reads on finds it there.
-/

namespace Conch.Tool

/-- The operands, or a dash for standard input if there are none. -/
def inputs (operands : List Text) : List Text :=
  if operands = [] then [['-']] else operands

/-- The file that the standard output is, if it is a file in the narrow sense. -/
def outputFile? (view : View) : Option FileId :=
  match view.endpoints Task.output with
  | some (.file file, _) => if (view.files.node? file).any Node.isRegular then some file else none
  | _ => none

/-- Would copying from a descriptor to standard output never end? -/
def copiesToItself (view : View) (descriptor : Nat) : Bool :=
  match view.endpoints descriptor, outputFile? view with
  | some (.file file, offset), some target =>
    file == target && offset < (view.files.contents file).length
  | _, _ => false

/-- How copying an input ends: all has been copied, or it could not be read, or it could not be
written, so that there is no point in going on. -/
inductive CopyEnd where
  | complete
  | unreadable
  | unwritable
  deriving DecidableEq, Repr

/-- Copy what can be read from a descriptor to standard output, in the form in which it is to be
shown. -/
def showAll (call : Call) (rendering : Option Rendering) (shownName : Text) (source : Nat) :
    (fuel : Nat) → Progress → Task (CopyEnd × Progress)
  | 0, p => pure (.complete, p)
  | fuel + 1, p => do
    match ← Task.ask (.read source 131072) with
    | .error errno =>
      call.reportFailure shownName (.system errno)
      pure (.unreadable, p)
    | .ok [] => pure (.complete, p)
    | .ok bytes =>
      let (form, p) := match rendering with
        | some r => r.feed p bytes
        | none => (bytes, p)
      match ← Task.ask (.write Task.output form) with
      | .ok () => showAll call rendering shownName source fuel p
      | .error errno =>
        call.reportFailure "write error".toList (.system errno)
        pure (.unwritable, p)

/-- The options of the program `cat`. -/
def catOptions : List OptionName :=
  [named 'b' "number-nonblank", named 'n' "number", named 's' "squeeze-blank",
    named 'v' "show-nonprinting", named 'E' "show-ends", named 'T' "show-tabs",
    named 'A' "show-all"] ++ letters ['e', 't', 'u']

/-- How text is to be shown as the options say; `none` is as it is. -/
def renderingOf? (settings : Settings) : Option Rendering :=
  let any (keys : List Char) : Bool := keys.any settings.has
  let r : Rendering :=
    { numbers := any ['b', 'n']
      skipsEmpty := any ['b']
      squeezes := any ['s']
      marksEnds := any ['e', 'E', 'A']
      marksTabs := any ['t', 'T', 'A']
      marksOthers := any ['e', 't', 'v', 'A'] }
  if r = {} then none else some r

/-- Copy each of some files to standard output. -/
def catEach (call : Call) (rendering : Option Rendering) : Progress → List Text → Task Nat
  | p, [] => do
    let rest := Rendering.finish p
    if rest != [] then
      let _ ← Task.ask (.write Task.output rest)
    pure 0
  | p, operand :: others => do
    let name := shown operand
    let unopened (e : IoError) : Task (CopyEnd × Progress) := do
      call.reportFailure name e
      pure (.unreadable, p)
    let (ending, p) ← Call.withInput operand unopened fun descriptor => do
      if copiesToItself (← Task.look) descriptor then
        call.report (name ++ ": input file is output file".toList)
        pure (.unreadable, p)
      else showAll call rendering name descriptor Task.patience p
    if ending = .unwritable then pure 1
    else
      let code ← catEach call rendering p others
      pure (if ending = .complete then code else 1)

/-- The program `cat`: copy files to standard output. -/
def cat (call : Call) : Task Nat :=
  call.withOptions catOptions fun settings => do
    if ← isClosed Task.output then
      call.reportFailure "standard output".toList (.system .badDescriptor)
      pure 1
    else
      let operands := inputs settings.operands
      let code ← catEach call (renderingOf? settings) {} operands
      call.finishInputs operands "closing standard input".toList code

/-- Write bytes to each of some descriptors that have names.  Those that cannot be written are
reported, and the others are the result. -/
def writeEach (call : Call) (bytes : List UInt8) :
    List (Text × Nat) → Task (List (Text × Nat))
  | [] => pure []
  | (name, descriptor) :: rest => do
    match ← Task.ask (.write descriptor bytes) with
    | .ok () => do pure ((name, descriptor) :: (← writeEach call bytes rest))
    | .error errno =>
      call.reportFailure name (.system errno)
      writeEach call bytes rest

/-- Copy standard input to descriptors that have names, as long as there is one left. -/
def copyToEach (call : Call) : (fuel : Nat) → List (Text × Nat) → Task Bool
  | 0, _ => pure true
  | fuel + 1, targets => do
    if targets = [] then pure false
    else match ← Task.ask (.read Task.input 131072) with
      | .error errno =>
        call.reportFailure "read error".toList (.system errno)
        pure false
      | .ok [] => pure true
      | .ok bytes =>
        let left ← writeEach call bytes targets
        let copied ← copyToEach call fuel left
        pure (copied && left.length = targets.length)

/-- Copy standard input to files and to standard output. -/
def tee (call : Call) : Task Nat :=
  call.withOptions [named 'a' "append", named 'i' "ignore-interrupts"] fun settings => do
    let access : Access := if settings.has 'a' then .append else .write
    let rec openAll : List Text → Task (Bool × List (Text × Nat))
      | [] => pure (true, [])
      | operand :: rest => do
        match ← Task.openFile operand access Task.usualMode with
        | .error e =>
          call.reportFailure (shown operand) e
          let (_, targets) ← openAll rest
          pure (false, targets)
        | .ok descriptor =>
          let (opened, targets) ← openAll rest
          pure (opened, (shown operand, descriptor) :: targets)
    let (opened, targets) ← openAll settings.operands
    let output := (quoted "standard output".toList, Task.output)
    let copied ← copyToEach call Task.patience (output :: targets)
    let code := if opened && copied then 0 else 1
    call.finishInputs [['-']] "standard input".toList code

/-! ## Beginnings and ends -/

/-- How much of its input a program wants: so many lines, or so many bytes. -/
inductive Share where
  | lines (count : Nat)
  | bytes (count : Nat)
  deriving DecidableEq, Repr

/-- The beginning of the bytes that belongs to so many lines, and how many lines are still
missing. -/
def takeLines (ending : UInt8) : Nat → List UInt8 → List UInt8 × Nat
  | 0, _ => ([], 0)
  | missing, [] => ([], missing)
  | missing + 1, b :: rest =>
    let (taken, missing) := takeLines ending (if b = ending then missing else missing + 1) rest
    (b :: taken, missing)

namespace Share

/-- The beginning of the bytes that belongs to a share, and what is still missing. -/
def take (ending : UInt8) : Share → List UInt8 → List UInt8 × Share
  | .lines count, given =>
    let (taken, missing) := takeLines ending count given
    (taken, .lines missing)
  | .bytes count, given => (given.take count, .bytes (count - given.length))

/-- Is nothing missing? -/
def isEmpty : Share → Bool
  | lines count | bytes count => count = 0

/-- How many bytes there are before the share at the end.  A line that does not end counts too. -/
def sizeBefore (ending : UInt8) (share : Share) (bytes : List UInt8) : Nat :=
  match share with
  | .bytes count => bytes.length - count
  | .lines count =>
    let whole := bytes.count ending
    let all := if bytes.getLast? = some ending || bytes = [] then whole else whole + 1
    (takeLines ending (all - count) bytes).1.length

end Share

/-- Put out the beginning of what can be read; the rest is given back.  The answer tells whether
reading went well. -/
def putStart (call : Call) (ending : UInt8) (shownName : Text) (descriptor : Nat) :
    (fuel : Nat) → Share → Buffering Bool
  | 0, _ => pure true
  | fuel + 1, share => do
    if share.isEmpty then pure true
    else match ← liftM (Task.ask (.read descriptor 8192)) with
      | .error errno =>
        call.reportFailureLater ("error reading ".toList ++ shownName) (.system errno)
        pure false
      | .ok [] => pure true
      | .ok bytes =>
        let (taken, missing) := share.take ending bytes
        if taken.length < bytes.length then
          let _ ← liftM (Task.ask (.giveBack descriptor (bytes.length - taken.length)))
        Buffering.put taken
        putStart call ending shownName descriptor fuel missing

/-- What a program is told about its share: the share and whether it is counted from the other side,
what ends a line, whether a heading is wanted before each input, if that was said, and the
operands. -/
structure ShareRequest where
  share : Share := .lines 10
  fromOtherSide : Bool := false
  ending : UInt8
  headed : Option Bool
  operands : List Text
  deriving DecidableEq, Repr

/-- Why there is no number in a text: it does not hold one, or the number is too large. -/
inductive CountFault where
  | invalid
  | tooLarge
  deriving DecidableEq, Repr

/-- The units in which something can be counted. -/
def countUnit? (suffix : Text) : Option Nat :=
  match suffix with
  | [] => some 1
  | ['b'] => some 512
  | c :: more =>
    let power := "KMGTPEZYRQ".toList.idxOf (if c = 'k' then 'K' else if c = 'm' then 'M' else c) + 1
    if power > 10 then none
    else if more = [] || more = ['i', 'B'] then some (Nat.pow 1024 power)
    else if more = ['B'] then some (Nat.pow 1000 power)
    else none

/-- The number that a text stands for. -/
def readCount (text : Text) : Except CountFault Nat :=
  let unsigned := match text.dropWhile Text.isPlainBlank with
    | '+' :: rest => rest
    | rest => rest
  let digits := unsigned.takeWhile Char.isDigit
  let suffix := unsigned.drop digits.length
  match countUnit? suffix with
  | none => .error .invalid
  | some factor =>
    if digits = [] && suffix = [] then .error .invalid
    else
      let count := (if digits = [] then 1 else Text.digitsValue digits) * factor
      if count < Nat.pow 2 64 then .ok count else .error .tooLarge

/-- The options that say how much a program wants. -/
def shareOptions : List OptionName :=
  [{ named 'c' "bytes" with wantsOperand := true },
    { named 'n' "lines" with wantsOperand := true }, named 'q' "quiet", named 'q' "silent",
    named 'v' "verbose", named 'z' "zero-terminated"]

/-- The options that an option stands for that is a number, and maybe letters, or a letter that
makes no sense there. -/
def numberOptions? (word : Text) : Option (Except Char (List (Char × Text))) :=
  match word with
  | '-' :: rest =>
    let digits := rest.takeWhile Char.isDigit
    let marks := rest.drop digits.length
    let units := ['c', 'b', 'k', 'm']
    let flags := ['q', 'v', 'z']
    if digits = [] then none
    else match marks.find? fun c => !('l' :: units ++ flags).contains c with
      | some c => some (.error c)
      | none =>
        let isLines := ((marks.filter ('l' :: units).contains).getLast?.getD 'l') == 'l'
        let unit := (marks.filter units.contains).getLast?.toList.filter (· != 'c')
        some (.ok ((if isLines then 'n' else 'c', digits ++ unit) ::
          (marks.filter flags.contains).map fun c => (c, [])))
  | _ => none

/-- What is wrong with the number in an option, in words. -/
def countFaultText (key : Char) (count : Text) (fault : CountFault) : Text :=
  let what := if key = 'c' then "bytes" else "lines"
  let reason := match fault with
    | .invalid => ""
    | .tooLarge => ": Value too large for defined data type"
  s!"invalid number of {what}: ".toList ++ cited count ++ reason.toList

/-- The number in an option, without the mark that tells the side. -/
def countText (word : Text) : Text :=
  if word.head? == some '-' then word.drop 1 else word

/-- The first number in options that is none, in words. -/
def firstCountFault? : List (Char × Text) → Option Text
  | [] => none
  | (key, word) :: rest =>
    if key = 'c' || key = 'n' then
      match readCount (countText word) with
      | .ok _ => firstCountFault? rest
      | .error fault => some (countFaultText key (countText word) fault)
    else if commonOptions.any fun common => common.key == key then none
    else firstCountFault? rest

/-- What a program is told about its share by options, of which the last one about a number counts;
it begins with `mark` if it is from the other side. -/
def shareRequest (mark : Char) (settings : Settings) : ShareRequest :=
  let request : ShareRequest :=
    { ending := if settings.has 'z' then 0 else Rendering.lineEnd
      headed := (settings.lastOf? ['q', 'v']).map fun (option : Char × Text) => option.1 == 'v'
      operands := settings.operands }
  match settings.lastOf? ['c', 'n'] with
  | none => request
  | some (key, word) =>
    match readCount (countText word) with
    | .error _ => request
    | .ok n =>
      { request with
        share := if key = 'c' then .bytes n else .lines n
        fromOtherSide := word.head? == some mark }

/-- A fault in the options of a program in which digits can only stand in the first word. -/
def trailingFault (call : Call) (letter : Char) : Task Nat :=
  call.refuse ("invalid trailing option -- ".toList ++ [letter]) 1

/-- Do something with what a program was told about its share, whose count begins with `mark` if it
is from the other side. -/
def Call.withShare (call : Call) (mark : Char) (action : ShareRequest → Task Nat) : Task Nat :=
  let (first, arguments) := match call.arguments with
    | word :: rest => match numberOptions? word with
      | some options => (options, rest)
      | none => (.ok [], word :: rest)
    | [] => (.ok [], [])
  match first with
  | .error letter => trailingFault call letter
  | .ok options =>
    let settings := readWords (shareOptions ++ commonOptions) true none arguments
    let settings := { settings with options := options ++ settings.options }
    match firstCountFault? settings.options, settings.fault with
    | some text, _ => do
      call.report text
      pure 1
    | none, some (.unknownLetter letter) =>
      if letter.isDigit then trailingFault call letter
      else call.withRead 1 settings fun settings => action (shareRequest mark settings)
    | none, _ => call.withRead 1 settings fun settings => action (shareRequest mark settings)

/-- How a program names standard input. -/
def inputName (operand : Text) : Text :=
  if operand = ['-'] then "standard input".toList else operand

/-- Do something with each input, under its heading if there are to be headings; the answer tells
whether all went well.  Between a heading and what comes before it there is an empty line. -/
def Call.underHeadings (call : Call) (headed : Bool) (action : Text → Nat → Buffering Bool) :
    (begun : Bool) → List Text → Buffering Bool
  | _, [] => pure true
  | begun, operand :: rest => do
    let unopened (e : IoError) : Buffering (Option Bool) := do
      call.reportFailureLater
        ("cannot open ".toList ++ quoted operand ++ " for reading".toList) e
      pure none
    let done ← Call.withInput operand unopened fun descriptor => do
      if headed then
        Buffering.put (Utf8.encode ((if begun then ['\n'] else []) ++ "==> ".toList ++
          inputName operand ++ " <==\n".toList))
      some <$> action (quoted (inputName operand)) descriptor
    let succeeded ← call.underHeadings headed action (begun || done.isSome) rest
    pure (done.getD false && succeeded)

/-- Do something with each input of a request. -/
def Call.withEach (call : Call) (request : ShareRequest)
    (action : Text → Nat → Buffering Bool) : Task Nat :=
  call.buffering do
    let operands := inputs request.operands
    let headed := request.headed.getD (operands.length > 1)
    let succeeded ← call.underHeadings headed action false operands
    if operands.contains ['-'] && (← liftM (isClosed Task.input)) then
      call.reportFailureLater ['-'] (.system .badDescriptor)
      pure 1
    else pure (if succeeded then 0 else 1)

/-- Put out a part of all that can be read; the answer tells whether reading went well. -/
def putPart (call : Call) (name : Text) (descriptor : Nat) (part : List UInt8 → List UInt8) :
    Buffering Bool := do
  match ← liftM (readAll descriptor Task.patience) with
  | .error errno =>
    call.reportFailureLater ("error reading ".toList ++ name) (.system errno)
    pure false
  | .ok bytes =>
    Buffering.put (part bytes)
    pure true

/-- The program `head`: copy the beginning of each input. -/
def head (call : Call) : Task Nat :=
  call.withShare '-' fun request =>
    call.withEach request fun name descriptor => do
      if !request.fromOtherSide then
        putStart call request.ending name descriptor Task.patience request.share
      else if ← liftM (isClosed descriptor) then
        call.reportFailureLater ("cannot fstat ".toList ++ name) (.system .badDescriptor)
        pure false
      else putPart call name descriptor fun bytes =>
        bytes.take (request.share.sizeBefore request.ending bytes)

/-- The program `tail`: copy the end of each input. -/
def tail (call : Call) : Task Nat :=
  call.withShare '+' fun request =>
    call.withEach request fun name descriptor =>
      putPart call name descriptor fun bytes =>
        if !request.fromOtherSide then
          bytes.drop (request.share.sizeBefore request.ending bytes)
        else match request.share with
          | .bytes count => bytes.drop (count - 1)
          | .lines count => bytes.drop (takeLines request.ending (count - 1) bytes).1.length

/-! ## What is in a stream -/

/-- A number at the right of a column. -/
def column (width n : Nat) : Text :=
  let digits := Text.decimal n
  List.replicate (width - digits.length) ' ' ++ digits

/-- The width of the columns in which inputs are counted: that of the size of all files, or more if
there are others. -/
def columnWidth (view : View) (operands : List Text) : Nat :=
  let nodeOf (operand : Text) : Option Node :=
    if operand = ['-'] then match view.endpoints Task.input with
      | some (.file file, _) => view.files.node? file
      | some _ => some .pipe
      | none => none
    else (view.find operand).toOption
  let nodes := operands.filterMap nodeOf
  let size := (nodes.map fun node => node.contents.length).foldr (· + ·) 0
  max (Text.decimal size).length (if nodes.all Node.isRegular then 1 else 7)

/-- Count what is in each input, and in all of them. -/
def wordCount (call : Call) : Task Nat :=
  call.withOptions [named 'l' "lines", named 'w' "words", named 'c' "bytes", named 'm' "chars"]
      fun settings => do
    let operands := settings.operands
    let wants (c : Char) : Bool := settings.options = [] && c != 'm' || settings.has c
    let countsOf (bytes : List UInt8) : List Nat :=
      (if wants 'l' then [bytes.count Rendering.lineEnd] else []) ++
      (if wants 'w' then [(Text.words (Utf8.decodeLossy bytes)).length] else []) ++
      (if wants 'm' then [bytes.length] else []) ++
      (if wants 'c' then [bytes.length] else [])
    let none := countsOf []
    let view ← Task.look
    let width := if none.length = 1 && operands.length ≤ 1 then 1
      else columnWidth view (inputs operands)
    let show_ (counts : List Nat) (name : Text) : Buffering Unit := do
      Buffering.put (Utf8.encode (spaced (counts.map (column width)) ++
        (if operands = [] then [] else ' ' :: name) ++ ['\n']))
      Buffering.flush
    let unopened (operand : Text) (e : IoError) : Buffering (Bool × List Nat) := do
      call.reportFailureLater (shown operand) e
      pure (false, none)
    let count (operand : Text) : Buffering (Bool × List Nat) :=
      Call.withInput operand (unopened operand) fun descriptor => do
        let (succeeded, counts) ← match ← liftM (readAll descriptor Task.patience) with
          | .error errno => unopened operand (.system errno)
          | .ok bytes => pure (true, countsOf bytes)
        show_ counts operand
        pure (succeeded, counts)
    call.buffering do
      let counted ← (inputs operands).mapM count
      if operands.length > 1 then
        show_ (counted.foldl (fun sums one => sums.zipWith (· + ·) one.2) none) "total".toList
      pure (if counted.all Prod.fst then 0 else 1)

/-- An item of a regular expression, which matches one character, and whether it may stand any
number of times. -/
structure Repeated where
  item : PatternItem
  starred : Bool
  deriving DecidableEq, Repr

/-- The items of a regular expression that has no alternatives. -/
def expressionItems : (fuel : Nat) → Text → List Repeated
  | 0, _ | _, [] => []
  | fuel + 1, c :: rest =>
    let (item, rest) : PatternItem × Text := match c, rest with
      | '.', rest => (.anyChar, rest)
      | '\\', d :: rest => (.char d, rest)
      | '[', rest =>
        let (negated, inside) := match rest with
          | '^' :: inside => (true, inside)
          | inside => (false, inside)
        match Pattern.readRanges (inside.length + 1) true (inside.map fun c => ⟨c, false⟩) with
        | some (ranges, rest) => (.oneOf negated ranges, rest.map PatternChar.char)
        | none => (.char '[', rest)
      | c, rest => (.char c, rest)
    match rest with
    | '*' :: rest => ⟨item, true⟩ :: expressionItems fuel rest
    | rest => ⟨item, false⟩ :: expressionItems fuel rest

/-- Do the items match at the beginning of a text, or the whole of it? -/
def matchesStart (whole : Bool) : List Repeated → Text → Bool
  | [], text => !whole || text = []
  | ⟨item, false⟩ :: rest, c :: text =>
    Pattern.matchesChar c item && matchesStart whole rest text
  | ⟨_, false⟩ :: _, [] => false
  | ⟨item, true⟩ :: rest, text =>
    let run := (text.takeWhile fun c => Pattern.matchesChar c item).length
    (List.range (run + 1)).any fun n => matchesStart whole rest (text.drop n)

/-- Does a regular expression match anywhere in a line? -/
def matchesLine (expression line : Text) : Bool :=
  let (anchored, expression) := match expression with
    | '^' :: rest => (true, rest)
    | rest => (false, rest)
  let whole := expression.getLast? == some '$'
  let expression := if whole then expression.dropLast else expression
  let items := expressionItems (expression.length + 1) expression
  if anchored then matchesStart whole items line
  else (Pattern.ends line).any (matchesStart whole items)

/-- Is a text part of a line? -/
def containsText (part line : Text) : Bool :=
  (Pattern.ends line).any part.isPrefixOf

/-- Look for lines that match. -/
def grep (call : Call) : Task Nat :=
  call.withSettings (letters ['q', 'v', 'i', 'c', 'F', 'E', 'x', 's', 'h']) true 2
      fun settings => do
    match settings.operands with
    | [] =>
      Task.write Task.errors
        ("Usage: grep [OPTION]... PATTERNS [FILE]...\n" ++
          "Try 'grep --help' for more information.\n").toList
      pure 2
    | expression :: operands =>
      let fold (text : Text) : Text := if settings.has 'i' then text.map Char.toLower else text
      let isMatch (line : Text) : Bool :=
        let line := fold line
        let expression := fold expression
        (if settings.has 'F' then
            if settings.has 'x' then expression = line else containsText expression line
          else if settings.has 'x' then matchesLine ('^' :: expression ++ ['$']) line
          else matchesLine expression line) != settings.has 'v'
      let headed := operands.length > 1 && !settings.has 'h'
      let rec search (found failed : Bool) : List Text → Task Nat
        | [] => pure (if failed && !(found && settings.has 'q') then 2 else if found then 0 else 1)
        | operand :: rest => do
          let read ← if operand = ['-'] then readAll Task.input Task.patience
            else match ← Task.openFile operand .read Task.usualMode with
              | .error (.system errno) => pure (.error errno)
              | .error .nulInPath => pure (.error .noEntry)
              | .ok descriptor => do
                let read ← readAll descriptor Task.patience
                Task.ask (.close descriptor)
                pure read
          match read with
          | .error errno =>
            if !settings.has 's' then call.reportFailure operand (.system errno)
            search found true rest
          | .ok bytes =>
            let matching := (lines (Utf8.decodeLossy bytes)).filter isMatch
            let header := if headed then operand ++ [':'] else []
            if !settings.has 'q' then
              Task.write Task.output
                (if settings.has 'c' then
                  header ++ Text.decimal matching.length ++ ['\n']
                else matching.flatMap fun line => header ++ line ++ ['\n'])
            search (found || !matching.isEmpty) failed rest
      search false false (inputs operands)

end Conch.Tool
