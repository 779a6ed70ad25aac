import Conch.Text.Quantity
import Conch.Tool.Quotation

/-!
# Formatted text

What stands after a backslash can stand for another character.  `echo` and `printf` differ in
where they heed backslashes and in how octal digits are introduced; they write bytes, since
octal digits can name any.

A format of `printf` is used as often as it takes to use up its arguments; a missing argument
counts as empty, or as zero.  Between the bytes that are written there can be reports of arguments
that should have been numbers.
-/

namespace Conch.Format

/-- The value of an octal digit. -/
def octal? (c : Char) : Option Nat :=
  if '0' ≤ c && c ≤ '7' then some (c.toNat - '0'.toNat) else none

/-- The characters that stand for others after a backslash. -/
def escapes : List (Char × Char) :=
  [('n', '\n'), ('t', '\t'), ('\\', '\\'), ('a', '\x07'), ('b', '\x08'), ('f', '\x0c'),
    ('r', '\r'), ('v', '\x0b'), ('e', '\x1b')]

/-- How a byte is written in octal digits after a backslash: in three digits at most, of which a
zero before them may not be one. -/
inductive OctalRule where
  | plain
  | afterZero
  deriving DecidableEq, Repr

/-- What hexadecimal digits after a backslash and a letter do: nothing, or after an `x` they name a
byte, and where they name characters too, after a `u` or `U`, they must be there. -/
inductive HexRule where
  | ignored
  | bytes
  | characters
  deriving DecidableEq, Repr

/-- Which sequences with a backslash are heeded: those that stand for one character, besides the
usual ones, whether a `c` ends the text, and how octal and hexadecimal digits count. -/
structure Dialect where
  more : List (Char × Char) := []
  octal : OctalRule
  ends : Bool
  hex : HexRule

/-- What comes of a sequence with a backslash: it stands for bytes, and the rest follows, or the
text ends here, or it lacks its hexadecimal digits. -/
inductive Replacement where
  | bytes (bytes : List UInt8) (rest : Text)
  | ends
  | unfinished

/-- The value of at most so many digits of a base, how many there are, and the rest. -/
def readDigits (base : Nat) (digit? : Char → Option Nat) (most : Nat) (text : Text) :
    Nat × Nat × Text :=
  let digits := (text.take most).takeWhile fun c => (digit? c).isSome
  (digits.foldl (fun n c => n * base + (digit? c).getD 0) 0, digits.length,
    text.drop digits.length)

/-- A character by its number, as far as plain text has it; the others are named by it. -/
def numbered (mark : Char) (width value : Nat) : List UInt8 :=
  if value < 0x80 then [UInt8.ofNat value]
  else
    let digits := (Nat.toDigits 16 value).map Char.toUpper
    Utf8.encode ('\\' :: mark :: List.replicate (width - digits.length) '0' ++ digits)

/-- Replace a sequence with hexadecimal digits. -/
def Dialect.replaceHex (d : Dialect) (c : Char) (rest : Text) : Replacement :=
  let literal : Replacement := .bytes (Utf8.encode ['\\', c]) rest
  let read (most least : Nat) (bytes : Nat → List UInt8) : Replacement :=
    let (value, count, rest) := readDigits 16 Quantity.digit? most rest
    if least ≤ count then .bytes (bytes value) rest
    else if d.hex = .characters then .unfinished
    else literal
  match d.hex, c with
  | .bytes, 'x' | .characters, 'x' => read 2 1 fun value => [UInt8.ofNat value]
  | .characters, 'u' => read 4 4 (numbered 'u' 4)
  | .characters, 'U' => read 8 8 (numbered 'U' 8)
  | _, _ => literal

/-- Replace one sequence. -/
def Dialect.replace (d : Dialect) (c : Char) (rest : Text) : Replacement :=
  if d.ends && c = 'c' then .ends
  else match (escapes ++ d.more).lookup c with
    | some meant => .bytes (String.utf8EncodeChar meant) rest
    | none =>
      let octal (text : Text) : Replacement :=
        let (value, _, rest) := readDigits 8 octal? 3 text
        .bytes [UInt8.ofNat value] rest
      if c = '0' && d.octal != .plain then octal rest
      else if (octal? c).isSome then octal (c :: rest)
      else d.replaceHex c rest

/-- How a text goes on after a sequence: it ends where texts end, it has ended early, or a sequence
lacks its hexadecimal digits. -/
inductive Outcome where
  | complete
  | ended
  | unfinished
  deriving DecidableEq, Repr

/-- Replace all sequences of a text: the bytes, and how it went. -/
def Dialect.replaceAll (d : Dialect) : (fuel : Nat) → Text → List UInt8 × Outcome
  | 0, _ | _, [] => ([], .complete)
  | fuel + 1, '\\' :: c :: rest =>
    match d.replace c rest with
    | .ends => ([], .ended)
    | .unfinished => ([], .unfinished)
    | .bytes bytes rest =>
      let (more, outcome) := d.replaceAll fuel rest
      (bytes ++ more, outcome)
  | fuel + 1, c :: rest =>
    let (more, outcome) := d.replaceAll fuel rest
    (String.utf8EncodeChar c ++ more, outcome)

/-- The bytes of a text, and how it went. -/
def Dialect.bytes (d : Dialect) (text : Text) : List UInt8 × Outcome :=
  d.replaceAll (text.length + 1) text

/-- What the program `echo` heeds if it is told to. -/
def echoDialect : Dialect :=
  { octal := .afterZero, ends := true, hex := .bytes }

/-- What the `echo` of scripts heeds. -/
def scriptDialect : Dialect :=
  { octal := .afterZero, ends := true, hex := .ignored }

/-- How a `printf` reads its format, and those arguments that ask to be read: what each of the two
heeds, the letters that may stand before the last one of a directive, whether there are layouts that
make no sense, and the numbers that fractions become. -/
structure Flavor where
  format : Dialect
  argument : Dialect
  modifiers : List Char
  strict : Bool
  extent : FloatExtent

/-- How the program reads. -/
def programFlavor : Flavor where
  format := { more := [('"', '"')], octal := .plain, ends := true, hex := .characters }
  argument := { more := [('"', '"')], octal := .afterZero, ends := true, hex := .characters }
  modifiers := ['l', 'L', 'h', 'j', 't', 'z']
  strict := true
  extent := .extended

/-- How the command of scripts reads. -/
def scriptFlavor : Flavor where
  format := { octal := .plain, ends := false, hex := .ignored }
  argument := scriptDialect
  modifiers := []
  strict := false
  extent := .double

/-- Is the argument a group of flags of `echo`? -/
def isEchoFlag : Text → Bool
  | '-' :: c :: rest => (c :: rest).all ['n', 'e', 'E'].contains
  | _ => false

/-- What the program `echo` writes. -/
def echo (arguments : List Text) : List UInt8 :=
  let flags := (arguments.takeWhile isEchoFlag).flatten.filter (· != '-')
  let text := [' '].intercalate (arguments.dropWhile isEchoFlag)
  let heeds := (flags.filter (· != 'n')).getLast? == some 'e'
  let (bytes, outcome) :=
    if heeds then echoDialect.bytes text else (Utf8.encode text, .complete)
  if flags.contains 'n' || outcome = .ended then bytes else bytes ++ Utf8.encode ['\n']

/-- What the `echo` of scripts writes. -/
def scriptEcho (arguments : List Text) : List UInt8 :=
  let (quiet, words) := match arguments with
    | ['-', 'n'] :: words => (true, words)
    | words => (false, words)
  let (bytes, outcome) := scriptDialect.bytes ([' '].intercalate words)
  if quiet || outcome = .ended then bytes else bytes ++ Utf8.encode ['\n']

/-! ## Formats -/

/-- How a value is laid out: at the left, with zeros before a number, with a plus sign or a blank
before a number that is not negative, with a mark of the base or with a point, and with its digits
in groups, of which a plain text has none.  The precision bounds the characters, or asks for so many
digits at least. -/
structure Layout where
  left : Bool := false
  zeros : Bool := false
  sign : Option Char := none
  marked : Bool := false
  grouped : Bool := false
  width : Nat := 0
  precision : Option Nat := none

/-- What is wrong with an argument that should be a number: it does not begin with one, something
comes after the number, or the number is too large. -/
inductive NumberFault where
  | missing
  | unfinished
  | tooLarge
  deriving DecidableEq, Repr

/-- An argument that should be a number, and what is wrong with it. -/
structure Fault where
  argument : Text
  fault : NumberFault
  deriving DecidableEq, Repr

/-- What is wrong, in the words of the program. -/
def Fault.programText (f : Fault) : Text :=
  match f.fault with
  | .missing => "expected a numeric value".toList
  | .unfinished => "value not completely converted".toList
  | .tooLarge => "Numerical result out of range".toList

/-- What is wrong, in the words of scripts. -/
def Fault.scriptText (f : Fault) : Text :=
  match f.fault with
  | .missing => "expected numeric value".toList
  | .unfinished => "not completely converted".toList
  | .tooLarge => "Numerical result out of range".toList

/-- Why a format is not written to its end: a directive makes no sense or lacks its last letter, a
sequence lacks its hexadecimal digits, or an argument that should be a width, or else a precision,
is too large. -/
inductive FormatFault where
  | unknown (directive : Text)
  | incomplete (directive : Text)
  | noDigits
  | badSize (isWidth : Bool) (argument : Text)
  deriving DecidableEq, Repr

/-- What comes out of a format: bytes to be written, a report of an argument that should have been a
number, or a report of what comes after a character whose code was asked for. -/
inductive Piece where
  | bytes (bytes : List UInt8)
  | fault (fault : Fault)
  | ignored (rest : List UInt8)
  deriving DecidableEq, Repr

/-- What is written of a format, in order, with the arguments that are left, whether everything ends
here, whether it does so because that was asked for, and what is wrong with the format. -/
structure Written where
  pieces : List Piece := []
  rest : List Text
  stops : Bool := false
  isEnded : Bool := false
  formatFault : Option FormatFault := none

namespace Written

/-- The bytes. -/
def bytes (written : Written) : List UInt8 :=
  written.pieces.flatMap fun
    | .bytes bytes => bytes
    | _ => []

/-- The arguments that should have been numbers. -/
def faults (written : Written) : List Fault :=
  written.pieces.filterMap fun
    | .fault fault => some fault
    | _ => none

/-- Has everything made sense, or has it come to an end that was asked for? -/
def succeeded (written : Written) : Bool :=
  written.faults = [] && written.formatFault.isNone || written.isEnded

end Written

/-- Fill a text up to its width. -/
def Layout.pad (l : Layout) (bytes : List UInt8) : List UInt8 :=
  let blanks := List.replicate (l.width - bytes.length) (32 : UInt8)
  if l.left then bytes ++ blanks else blanks ++ bytes

/-- Digits after their sign and mark, laid out; zeros can come between them. -/
def Layout.digits (l : Layout) (zeros : Bool) (head digits : Text) : List UInt8 :=
  let fill := if zeros && l.zeros && !l.left then l.width - (head.length + digits.length) else 0
  l.pad (Utf8.encode (head ++ List.replicate fill '0' ++ digits))

/-- The sign that comes before a number. -/
def Layout.signOf (l : Layout) (isNegative : Bool) : Text :=
  if isNegative then ['-'] else l.sign.toList

/-- A number with its sign, laid out. -/
def Layout.number (l : Layout) (base : Nat) (upper : Bool) (value : Int) : List UInt8 :=
  let digits := Nat.toDigits base value.natAbs
  let digits := if upper then digits.map Char.toUpper else digits
  let digits := if l.precision = some 0 && value = 0 then [] else digits
  let digits := List.replicate ((l.precision.getD 0) - digits.length) '0' ++ digits
  let mark : Text :=
    if !l.marked || (value = 0 && base = 16) then []
    else if base = 16 then ['0', if upper then 'X' else 'x']
    else if base = 8 && digits.head? != some '0' then ['0'] else []
  l.digits l.precision.isNone (l.signOf (value < 0) ++ mark) digits

/-- The number of places if nothing is said about it. -/
def usualPlaces : Nat := 6

/-- The mark of the base, and the digits, of a number by the letter of its directive. -/
def Layout.floatingText (l : Layout) (x : FloatExtent) (letter : Char) (significand : Nat)
    (exponent : Int) : Text × Text :=
  let places := l.precision.getD usualPlaces
  match letter with
  | 'f' => ([], (Floating.fixed places significand exponent).text l.marked)
  | 'e' =>
    let p := Floating.scientific places significand exponent
    ([], p.text l.marked ++ Places.powerText 'e' 2 p.power)
  | 'g' =>
    let (hasPower, p) := Floating.shorter places significand exponent
    ([], (if l.marked then p else p.stripped).text l.marked ++
      if hasPower then Places.powerText 'e' 2 p.power else [])
  | _ =>
    let p := Floating.hexadecimal x l.precision significand exponent
    (['0', 'x'], p.text l.marked ++ Places.powerText 'p' 1 p.power)

/-- A number that need not be whole, laid out by the letter of its directive. -/
def Layout.floating (l : Layout) (x : FloatExtent) (letter : Char) (isNegative : Bool)
    (value : Floating) : List UInt8 :=
  let inCase (text : Text) : Text := if letter.isUpper then text.map Char.toUpper else text
  let sign := l.signOf isNegative
  match value with
  | .infinite => l.digits false sign (inCase "inf".toList)
  | .undefined => l.digits false sign (inCase "nan".toList)
  | .finite significand exponent =>
    let (mark, text) := l.floatingText x letter.toLower significand exponent
    l.digits true (sign ++ inCase mark) (inCase text)

/-- The number at the beginning of a text, in some base, and what comes after it. -/
def leadingNumber (base : Nat) (digit? : Char → Option Nat) (text : Text) : Nat × Text :=
  let digits := text.takeWhile fun c => (digit? c).isSome
  (digits.foldl (fun n c => n * base + (digit? c).getD 0) 0, text.drop digits.length)

/-- The number that an argument stands for, and what comes after it.  There may be blanks and a sign
before it, and its first characters tell its base. -/
def readNumber (argument : Text) : Int × Text :=
  let text := argument.dropWhile Text.isPlainBlank
  let (negative, digits) := match text with
    | '-' :: digits => (true, digits)
    | '+' :: digits => (false, digits)
    | digits => (false, digits)
  let (value, rest) := match digits with
    | '0' :: x :: c :: more =>
      if (x = 'x' || x = 'X') && (Quantity.digit? c).isSome then
        leadingNumber 16 Quantity.digit? (c :: more)
      else leadingNumber 8 octal? digits
    | '0' :: _ => leadingNumber 8 octal? digits
    | _ => leadingNumber 10 (fun c => if c.isDigit then some (c.toNat - '0'.toNat) else none) digits
  let rest := if rest.length = digits.length then argument else rest
  (if negative then -(value : Int) else value, rest)

/-- A report of an argument, if something is wrong with it as a number. -/
def faultOf (argument : Text) (fault : Option NumberFault) : List Piece :=
  fault.toList.map fun fault => .fault ⟨argument, fault⟩

/-- What is wrong with an argument whose number is followed by `rest`. -/
def Flavor.judge (f : Flavor) (rest : Text) (isInRange : Bool) : Option NumberFault :=
  if !isInRange && (f.strict || rest = []) then some .tooLarge
  else if rest != [] then some .unfinished
  else none

/-- The code of a character that comes after a quotation mark, with a report of what comes after it,
if that is what an argument is. -/
def Flavor.codeOf? (f : Flavor) : Text → Option (Nat × List Piece)
  | '\'' :: rest | '"' :: rest =>
    match Utf8.encode rest with
    | [] => if f.strict then none else some (0, [])
    | byte :: others =>
      some (byte.toNat, if f.strict && others != [] then [.ignored others] else [])
  | _ => none

/-- The number that an argument stands for in a range, after reports of what is wrong with it;
nothing stands for zero, and what is below the range for `below`. -/
def Flavor.numberOf (f : Flavor) (least most below : Int) (argument : Text) :
    Int × List Piece :=
  match f.codeOf? argument with
  | some (code, pieces) => (code, pieces)
  | none =>
    let (value, rest) := readNumber argument
    if argument = [] then (0, [])
    else if rest = argument then (0, faultOf argument (some .missing))
    else
      (if value < least then below else min most value,
        faultOf argument (f.judge rest (least ≤ value && value ≤ most)))

/-- The number with a sign that an argument stands for. -/
def Flavor.signedOf (f : Flavor) (argument : Text) : Int × List Piece :=
  f.numberOf (-Int.pow 2 63) (Int.pow 2 63 - 1) (-Int.pow 2 63) argument

/-- The number without a sign that an argument stands for; a negative one is counted from the end of
the range. -/
def Flavor.unsignedOf (f : Flavor) (argument : Text) : Int × List Piece :=
  let (value, pieces) :=
    f.numberOf (-Int.pow 2 64 + 1) (Int.pow 2 64 - 1) (Int.pow 2 64 - 1) argument
  (value % Int.pow 2 64, pieces)

/-- The number, perhaps a fraction, that an argument stands for, and whether it is negative, after
reports of what is wrong with it. -/
def Flavor.floatingOf (f : Flavor) (argument : Text) : Bool × Floating × List Piece :=
  match f.codeOf? argument, Quantity.read? argument with
  | some (code, pieces), _ => (false, (f.extent.nearest (.fraction code 1)).1, pieces)
  | none, none =>
    (false, .finite 0 0, faultOf argument (if argument = [] then none else some .missing))
  | none, some (isNegative, quantity, rest) =>
    let (value, isInRange) := f.extent.nearest quantity
    (isNegative, value, faultOf argument (f.judge rest isInRange))

/-- Read the flags of a directive. -/
def Flavor.readFlags (f : Flavor) (l : Layout) : Text → Layout × Text
  | '-' :: rest => f.readFlags { l with left := true } rest
  | '0' :: rest => f.readFlags { l with zeros := true } rest
  | '+' :: rest => f.readFlags { l with sign := some '+' } rest
  | ' ' :: rest => f.readFlags { l with sign := some (l.sign.getD ' ') } rest
  | '#' :: rest => f.readFlags { l with marked := true } rest
  | c :: rest =>
    if f.strict && (c = '\'' || c = 'I') then f.readFlags { l with grouped := true } rest
    else (l, c :: rest)
  | [] => (l, [])

/-- A width or a precision: its value, if there is one, reports of what is wrong with it, the
argument that is too large to be one, and what comes after it in the format and among the
arguments. -/
structure Size where
  value? : Option Int
  pieces : List Piece := []
  refused : Option Text := none
  text : Text
  rest : List Text

/-- Read a width or a precision, which can be an argument. -/
def Flavor.readSize (f : Flavor) (isWidth : Bool) (text : Text) (arguments : List Text) : Size :=
  match text with
  | '*' :: text =>
    let argument := arguments.headD []
    let (value, pieces) := f.signedOf argument
    let isLarge := (isWidth && value < -Int.pow 2 31) || Int.pow 2 31 ≤ value
    { value? := some (if f.strict then value else value.bmod (Nat.pow 2 32))
      pieces, text, rest := arguments.drop 1
      refused := if f.strict && isLarge then some argument else none }
  | _ =>
    let digits := text.takeWhile Char.isDigit
    { value? := if digits = [] then none else some (Text.digitsValue digits)
      text := text.drop digits.length, rest := arguments }

/-- Read a layout after a percent sign; the result tells how far that went. -/
def Flavor.readLayout (f : Flavor) (text : Text) (arguments : List Text) :
    Layout × Text × Written :=
  let (l, text) := f.readFlags {} text
  let width := f.readSize true text arguments
  let l := match width.value? with
    | none => l
    | some n => { l with width := n.natAbs, left := l.left || n < 0 }
  let stopped (isWidth : Bool) (size : Size) (pieces : List Piece) : Written :=
    { pieces, rest := size.rest, stops := size.refused.isSome
      formatFault := size.refused.map (.badSize isWidth) }
  match width.refused, width.text with
  | none, '.' :: text =>
    let precision := f.readSize false text width.rest
    let value := precision.value?.getD 0
    ({ l with precision := if value < 0 then none else some value.toNat }, precision.text,
      stopped false precision (width.pieces ++ precision.pieces))
  | _, text => (l, text, stopped true width width.pieces)

/-- Does a directive with this last letter make sense in a layout?  `plain` says that nothing stands
before the letter. -/
def Flavor.allows (f : Flavor) (l : Layout) (plain : Bool) (c : Char) : Bool :=
  if !f.strict then c != 'q'
  else match c with
    | 'b' | 'q' => plain
    | 'c' => !l.marked && !l.zeros && !l.grouped && l.precision.isNone
    | 's' => !l.marked && !l.zeros && !l.grouped
    | 'd' | 'i' | 'u' => !l.marked
    | 'f' | 'F' | 'g' | 'G' => true
    | _ => !l.grouped

/-- Write the value of a directive. -/
def Flavor.writeDirective (f : Flavor) (l : Layout) (directive : Text) (c : Char)
    (arguments : List Text) : Written :=
  let argument := arguments.headD []
  let rest := arguments.drop 1
  let cut (bytes : List UInt8) : List UInt8 :=
    match l.precision with
    | some n => bytes.take n
    | none => bytes
  let number (base : Nat) (upper signed : Bool) : Written :=
    let (value, pieces) := if signed then f.signedOf argument else f.unsignedOf argument
    let l := if signed then l else { l with sign := none }
    { pieces := pieces ++ [.bytes (l.number base upper value)], rest }
  let floating : Written :=
    let (isNegative, value, pieces) := f.floatingOf argument
    { pieces := pieces ++ [.bytes (l.floating f.extent c isNegative value)], rest }
  let unknown : Written :=
    { rest := arguments, stops := true, formatFault := some (.unknown directive) }
  if !f.allows l (directive.length = 2) c then unknown
  else match c with
    | 's' => { pieces := [.bytes (l.pad (cut (Utf8.encode argument)))], rest }
    | 'q' =>
      { pieces := (arguments.take 1).map fun argument => .bytes (Utf8.encode (Tool.shown argument))
        rest }
    | 'c' =>
      let byte := (Utf8.encode argument).headD 0
      { pieces := [.bytes (l.pad [byte])], rest }
    | 'b' =>
      let (bytes, outcome) := f.argument.bytes argument
      { pieces := [.bytes (l.pad (cut bytes))], rest
        stops := outcome != .complete, isEnded := outcome = .ended
        formatFault := if outcome = .unfinished then some .noDigits else none }
    | 'd' | 'i' => number 10 false true
    | 'u' => number 10 false false
    | 'o' => number 8 false false
    | 'x' => number 16 false false
    | 'X' => number 16 true false
    | 'a' | 'A' | 'e' | 'E' | 'f' | 'F' | 'g' | 'G' => floating
    | _ => unknown

/-- Write a format once. -/
def Flavor.writeOnce (f : Flavor) : (fuel : Nat) → Text → List Text → Written
  | 0, _, arguments | _, [], arguments => { rest := arguments }
  | fuel + 1, c :: text, arguments =>
    let continued (before : Written) (text : Text) : Written :=
      if before.stops then before
      else
        let after := f.writeOnce fuel text before.rest
        { after with pieces := before.pieces ++ after.pieces }
    let plain (bytes : List UInt8) : Written := { pieces := [.bytes bytes], rest := arguments }
    match c, text with
    | '%', '%' :: text => continued (plain (Utf8.encode ['%'])) text
    | '%', text =>
      let (l, left, sizes) := f.readLayout text arguments
      let left := left.dropWhile f.modifiers.contains
      let directive := '%' :: text.take (text.length - left.length)
      if sizes.stops then sizes
      else match left with
        | [] =>
          { sizes with stops := true, formatFault := some (.incomplete directive) }
        | c :: left =>
          let value := f.writeDirective l (directive ++ [c]) c sizes.rest
          continued { value with pieces := sizes.pieces ++ value.pieces } left
    | '\\', c :: text =>
      match f.format.replace c text with
      | .ends => { rest := [], stops := true, isEnded := true }
      | .unfinished => { rest := [], stops := true, formatFault := some .noDigits }
      | .bytes bytes text => continued (plain bytes) text
    | c, text => continued (plain (String.utf8EncodeChar c)) text

/-- Write a format as often as it takes to use up the arguments. -/
def Flavor.writeAll (f : Flavor) (format : Text) : (fuel : Nat) → List Text → Written
  | 0, arguments => { rest := arguments }
  | fuel + 1, arguments =>
    let once := f.writeOnce (format.length + 1) format arguments
    if once.stops || once.rest = [] || once.rest.length = arguments.length then once
    else
      let more := f.writeAll format fuel once.rest
      { more with pieces := once.pieces ++ more.pieces }

/-- Write a format with its arguments. -/
def Flavor.printf (f : Flavor) (format : Text) (arguments : List Text) : Written :=
  f.writeAll format (arguments.length + 1) arguments

end Conch.Format
