import Conch.Text.Decimal

/-!
# Quantities

A quantity is a fraction, or more than any, or nothing that could be counted.  It is written in
decimal digits with a point and a power of ten, or in hexadecimal digits with a point and a power
of two.

What computes with quantities keeps only so many binary digits of them: those of the nearest
number that it has.  Such a number is shown exactly, in as many places as are wanted.
-/

namespace Conch

/-- A quantity without its sign: a fraction, more than any fraction, or no quantity at all. -/
inductive Quantity where
  | fraction (numerator denominator : Nat)
  | infinite
  | undefined
  deriving DecidableEq, Repr

/-- A fraction times a power of a base. -/
def timesPower (base : Nat) (power : Int) (numerator denominator : Nat) : Nat × Nat :=
  if 0 ≤ power then (numerator * Nat.pow base power.toNat, denominator)
  else (numerator, denominator * Nat.pow base power.natAbs)

/-- A fraction rounded to the nearest whole number, and to the even one of two that are as near. -/
def roundedQuotient (numerator denominator : Nat) : Nat :=
  let whole := numerator / denominator
  let twice := 2 * (numerator % denominator)
  if twice < denominator || (twice = denominator && whole % 2 = 0) then whole else whole + 1

/-! ## Reading -/

namespace Quantity

/-- The value of a digit up to `f`. -/
def digit? (c : Char) : Option Nat :=
  if c.isDigit then some (c.toNat - '0'.toNat)
  else if 'a' ≤ c && c ≤ 'f' then some (c.toNat - 'a'.toNat + 10)
  else if 'A' ≤ c && c ≤ 'F' then some (c.toNat - 'A'.toNat + 10)
  else none

/-- The number that digits of a base stand for. -/
def digitsValue (base : Nat) (digits : Text) : Nat :=
  digits.foldl (fun n c => n * base + (digit? c).getD 0) 0

/-- Read the power after its mark; without digits there is none. -/
def readPower (mark : Char) (text : Text) : Int × Text :=
  match text with
  | c :: rest =>
    if c.toLower != mark then (0, text)
    else
      let (isNegative, digits) := match rest with
        | '-' :: digits => (true, digits)
        | '+' :: digits => (false, digits)
        | digits => (false, digits)
      let read := digits.takeWhile Char.isDigit
      if read = [] then (0, text)
      else
        let value : Int := Text.digitsValue read
        (if isNegative then -value else value, digits.drop read.length)
  | [] => (0, [])

/-- Read digits with a point and a power.  Each digit after the point takes away `step` from the
power of `root`; powers that are out of all bounds are cut. -/
def readDigits? (base root step : Nat) (mark : Char) (text : Text) : Option (Quantity × Text) :=
  let isDigit (c : Char) : Bool := (digit? c).any (· < base)
  let whole := text.takeWhile isDigit
  let (places, rest) := match text.drop whole.length with
    | '.' :: rest => (rest.takeWhile isDigit, rest.dropWhile isDigit)
    | rest => ([], rest)
  if whole = [] && places = [] then none
  else
    let (power, rest) := readPower mark rest
    let bound : Int := 20000 + step * text.length
    let power := max (-bound) (min bound power) - step * places.length
    let (numerator, denominator) := timesPower root power (digitsValue base (whole ++ places)) 1
    some (.fraction numerator denominator, rest)

/-- The rest of a text that begins with a word, in letters of either case. -/
def after? (word : String) (text : Text) : Option Text :=
  if word.toList.isPrefixOf (text.map Char.toLower) then some (text.drop word.length) else none

/-- Read a quantity that has no sign. -/
def readUnsigned? (text : Text) : Option (Quantity × Text) :=
  match after? "infinity" text, after? "inf" text, after? "nan" text, after? "0x" text with
  | some rest, _, _, _ | none, some rest, _, _ => some (.infinite, rest)
  | _, _, some rest, _ =>
    let inside := (rest.drop 1).takeWhile fun c => c.isAlphanum || c = '_'
    some (.undefined,
      if rest.head? = some '(' && rest[inside.length + 1]? = some ')'
      then rest.drop (inside.length + 2) else rest)
  | _, _, _, some rest =>
    (readDigits? 16 2 4 'p' rest).or (some (.fraction 0 1, text.drop 1))
  | _, _, _, none => readDigits? 10 10 1 'e' text

/-- Read the quantity at the beginning of a text, blanks and a sign before it: is it negative, what
is it, and what comes after it? -/
def read? (text : Text) : Option (Bool × Quantity × Text) :=
  let (isNegative, unsigned) := match text.dropWhile Text.isPlainBlank with
    | '-' :: rest => (true, rest)
    | '+' :: rest => (false, rest)
    | rest => (false, rest)
  (readUnsigned? unsigned).map fun read => (isNegative, read)

end Quantity

/-! ## Numbers with so many digits -/

/-- A number that is computed with, without its sign: a whole number times a power of two, more than
any number, or no number at all. -/
inductive Floating where
  | finite (significand : Nat) (exponent : Int)
  | infinite
  | undefined
  deriving DecidableEq, Repr

/-- Which numbers are computed with: how many binary digits they have at most, the least power of
two, and the one that all numbers are below. -/
structure FloatExtent where
  digits : Nat
  least : Int
  most : Int
  deriving DecidableEq, Repr

namespace FloatExtent

/-- The numbers with fifty-three digits. -/
def double : FloatExtent := ⟨53, -1074, 1024⟩

/-- The numbers with sixty-four digits. -/
def extended : FloatExtent := ⟨64, -16445, 16384⟩

/-- The number that is nearest to a quantity, and whether the quantity is not too large, and not so
small that digits are lost. -/
def nearest (x : FloatExtent) : Quantity → Floating × Bool
  | .infinite => (.infinite, true)
  | .undefined => (.undefined, true)
  | .fraction 0 _ => (.finite 0 0, true)
  | .fraction numerator denominator =>
    let guess : Int := (numerator.log2 : Int) - denominator.log2
    let (a, b) := timesPower 2 (-guess) numerator denominator
    let top := if b ≤ a then guess else guess - 1
    let exponent := max x.least (top + 1 - x.digits)
    let (a, b) := timesPower 2 (-exponent) numerator denominator
    let rounded := roundedQuotient a b
    let (significand, exponent) :=
      if rounded = Nat.pow 2 x.digits then (rounded / 2, exponent + 1) else (rounded, exponent)
    if x.most ≤ significand.log2 + exponent then (.infinite, false)
    else
      let isSmall := significand.log2 + 1 < x.digits
      (.finite significand exponent, !(isSmall && rounded * b != a))

end FloatExtent

/-! ## Digits -/

/-- A number in digits: those before the point, those after it, and a power. -/
structure Places where
  whole : Text
  places : Text
  power : Int := 0
  deriving DecidableEq, Repr

namespace Places

/-- Zeros before digits, so that there are so many. -/
def padded (count : Nat) (digits : Text) : Text :=
  List.replicate (count - digits.length) '0' ++ digits

/-- A number whose last digits come after the point. -/
def ofDigits (count : Nat) (power : Int) (digits : Text) : Places :=
  let digits := padded (count + 1) digits
  ⟨digits.take (digits.length - count), digits.drop (digits.length - count), power⟩

/-- The number without the zeros at its end. -/
def stripped (p : Places) : Places :=
  { p with places := (p.places.reverse.dropWhile (· = '0')).reverse }

/-- The number as it is written; the point can be written even if nothing comes after it. -/
def text (pointed : Bool) (p : Places) : Text :=
  p.whole ++ (if pointed || p.places != [] then '.' :: p.places else [])

/-- A power after its mark, in so many digits at least. -/
def powerText (mark : Char) (count : Nat) (power : Int) : Text :=
  mark :: (if power < 0 then '-' else '+') :: padded count (Text.decimal power.natAbs)

end Places

namespace Floating

/-- A fraction that is a whole number times a power of two. -/
def fraction (significand : Nat) (exponent : Int) : Nat × Nat :=
  timesPower 2 exponent significand 1

/-- A number with so many places. -/
def fixed (places significand : Nat) (exponent : Int) : Places :=
  let (a, b) := fraction significand exponent
  .ofDigits places 0 (Text.decimal (roundedQuotient (a * Nat.pow 10 places) b))

/-- A number with one digit before the point, so many after it, and a power of ten. -/
def scientific (places significand : Nat) (exponent : Int) : Places :=
  if significand = 0 then .ofDigits places 0 []
  else
    let (a, b) := fraction significand exponent
    let guess : Int := ((Text.decimal a).length : Int) - (Text.decimal b).length
    let (c, d) := timesPower 10 (-guess) a b
    let power := if d ≤ c then guess else guess - 1
    let (c, d) := timesPower 10 (places - power) a b
    let digits := Text.decimal (roundedQuotient c d)
    if digits.length ≤ places + 1 then .ofDigits places power digits
    else .ofDigits places (power + 1) digits.dropLast

/-- A number with so many digits in all, in the way that is shorter. -/
def shorter (digits significand : Nat) (exponent : Int) : Bool × Places :=
  let count := max 1 digits
  let p := scientific (count - 1) significand exponent
  if -4 ≤ p.power && p.power < count then
    (false, fixed ((count : Int) - 1 - p.power).toNat significand exponent)
  else (true, p)

/-- A number in hexadecimal digits and a power of two, of which the first digit has what is left of
so many binary digits; without a number of places all that are needed are written. -/
def hexadecimal (x : FloatExtent) (places? : Option Nat) (significand : Nat) (exponent : Int) :
    Places :=
  let all := (x.digits - 1) / 4
  let power := if significand = 0 then 0 else exponent + 4 * all
  let digits (n : Nat) : Text := Nat.toDigits 16 n
  match places? with
  | none => (Places.ofDigits all power (digits significand)).stripped
  | some places =>
    if all ≤ places then
      let p := Places.ofDigits all power (digits significand)
      { p with places := p.places ++ List.replicate (places - all) '0' }
    else
      let rounded := roundedQuotient significand (Nat.pow 16 (all - places))
      if rounded < Nat.pow 16 (places + 1) then .ofDigits places power (digits rounded)
      else .ofDigits places (power + 4) (digits (rounded / 16))

end Floating

end Conch
