import Conch.Text.Blank

/-!
# Decimal numbers

Numbers are written with the fewest digits, and read from any number of digits.
-/

namespace Conch.Text

/-- A natural number in decimal digits. -/
def decimal (n : Nat) : Text :=
  Nat.toDigits 10 n

theorem decimal_ne_nil (n : Nat) : decimal n ≠ [] :=
  Nat.toDigits_ne_nil

theorem isDigit_of_mem_decimal {n : Nat} {c : Char} (h : c ∈ decimal n) : c.isDigit = true :=
  Nat.isDigit_of_mem_toDigits (by decide) (by decide) h

/-- The number that decimal digits stand for. -/
def digitsValue (digits : Text) : Nat :=
  digits.foldl (fun n c => 10 * n + (c.toNat - '0'.toNat)) 0

/-- A number that is written in decimal digits is read as itself. -/
theorem digitsValue_decimal (n : Nat) : digitsValue (decimal n) = n := by
  have hdigit : ∀ d < 10, (Nat.digitChar d).toNat - '0'.toNat = d := by decide
  induction n using Nat.strongRecOn with
  | ind n ih =>
      rw [decimal, Nat.toDigits_eq_if (by decide)]
      split
      · next hsmall => simpa [digitsValue] using hdigit n hsmall
      · next hlarge =>
          have hfront : digitsValue (Nat.toDigits 10 (n / 10)) = n / 10 :=
            ih (n / 10) (by omega)
          have hlast := hdigit (n % 10) (Nat.mod_lt n (by decide))
          have hvalue : digitsValue (Nat.toDigits 10 (n / 10) ++ [(n % 10).digitChar]) =
              10 * digitsValue (Nat.toDigits 10 (n / 10)) +
                ((n % 10).digitChar.toNat - '0'.toNat) := by
            rw [digitsValue, List.foldl_append]
            rfl
          rw [hvalue, hfront, hlast]
          omega

/-- The number that is written in decimal digits, if nothing else is there. -/
def natural? (t : Text) : Option Nat :=
  if t = [] || t.any fun c => !c.isDigit then none else some (digitsValue t)

/-- The number that is written in decimal digits, perhaps after a minus sign. -/
def integer? : Text → Option Int
  | '-' :: digits => (natural? digits).map fun n => -(n : Int)
  | digits => (natural? digits).map fun n => (n : Int)

/-- The number that is written in decimal digits between blanks, perhaps after a sign. -/
def paddedInteger? (t : Text) : Option Int :=
  match trim t with
  | '+' :: digits => (natural? digits).map fun n => (n : Int)
  | t => integer? t

end Conch.Text
