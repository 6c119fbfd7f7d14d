import Brainfuck.Capacity
import Brainfuck.Text.Blank
import Brainfuck.Text.Digit

/-!
# Integers in decimal notation

An integer is written with an optional sign and decimal digits of any script,
between which single underscores may stand.  Leading zeros are allowed, and so
is white space around the whole.  A numeral of more than `maxDigits` digits is
refused.
-/

namespace Brainfuck.Text.Integer

/-- White space that may surround a numeral: the information separators are
not among it. -/
def isSpacing (c : Char) : Bool :=
  isBlank c && !(0x1C ≤ c.toNat && c.toNat ≤ 0x1F)

/-- Reads the digits on, from the value of those before.  `afterDigit` says
whether the last character was a digit: an underscore may stand only there,
and the numeral may end only there. -/
def readDigits : (value : Nat) → (afterDigit : Bool) → List Char → Option Nat
  | value, afterDigit, [] => if afterDigit then some value else none
  | value, afterDigit, c :: rest =>
    if c = '_' then
      if afterDigit then readDigits value false rest else none
    else match decimalValue? c with
      | some d => readDigits (10 * value + d) true rest
      | none => none

/-- The number that the digits stand for. -/
def natural? (cs : List Char) : Option Nat :=
  if (cs.filter (· ≠ '_')).length ≤ maxDigits then readDigits 0 false cs else none

/-- The text without the white space around it. -/
def trim (cs : List Char) : List Char :=
  ((cs.dropWhile isSpacing).reverse.dropWhile isSpacing).reverse

/-- The integer that a text stands for. -/
def ofString? (s : String) : Option Int :=
  match trim s.toList with
  | '-' :: digits => (natural? digits).map fun n => -(n : Int)
  | '+' :: digits => (natural? digits).map Int.ofNat
  | digits => (natural? digits).map Int.ofNat

end Brainfuck.Text.Integer
