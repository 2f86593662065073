import Reconciliation.Text.Ascii
import Reconciliation.Text.Numeral

/-! # Property values

The four kinds of value that a registration property can have, and the lenient readings of them.
-/
namespace Reconciliation

inductive Value where
  | flag (b : Bool)
  | integer (n : Int64)
  | text (s : String)
  | list (items : List String)
  deriving DecidableEq, Repr

namespace Value

def flagText (b : Bool) : String :=
  if b then "true" else "false"

/-- The text form: a list stands in brackets, its items apart by a comma. -/
def display : Value → String
  | flag b => flagText b
  | integer n => Text.decimal n
  | text s => s
  | list items => "[" ++ ", ".intercalate items ++ "]"

def text? : Value → Option String
  | text s => some s
  | _ => none

def int64? : Value → Option Int64
  | integer n => some n
  | text s => Text.int64Of? s
  | _ => none

def isTrue : Value → Bool
  | flag b => b
  | text s => Text.sameLetters (Text.trim s) "true"
  | _ => false

/-- The items of a list; the text form of anything else. -/
def strings : Value → List String
  | list items => items
  | v => [v.display]

end Value

end Reconciliation
