import Reconciliation.Text.Blank

/-! # Decimal numerals

A numeral is an optional sign and at least one ASCII digit. Reading a signed 64-bit number refuses a
numeral that is out of range.
-/
namespace Reconciliation.Text

def digitValue? (c : Char) : Option Nat :=
  if '0' ≤ c ∧ c ≤ '9' then some (c.toNat - '0'.toNat) else none

/-- Value of a run of digits after `acc`; anything but a digit is refused. -/
def readDigits? : List Char → Nat → Option Nat
  | [], acc => some acc
  | c :: cs, acc => (digitValue? c).bind fun d => readDigits? cs (10 * acc + d)

def readNatural? : List Char → Option Nat
  | [] => none
  | cs => readDigits? cs 0

def readInteger? : List Char → Option Int
  | '+' :: cs => (readNatural? cs).map Int.ofNat
  | '-' :: cs => (readNatural? cs).map fun n => -Int.ofNat n
  | cs => (readNatural? cs).map Int.ofNat

def int64OfInt? (n : Int) : Option Int64 :=
  if Int64.minValue.toInt ≤ n ∧ n ≤ Int64.maxValue.toInt then some (Int64.ofInt n) else none

def readInt64? (cs : List Char) : Option Int64 :=
  (readInteger? cs).bind int64OfInt?

/-- Blanks around the numeral are ignored. -/
def int64Of? (s : String) : Option Int64 :=
  readInt64? (trimChars s.toList)

def decimal (n : Int64) : String :=
  toString n.toInt

end Reconciliation.Text
