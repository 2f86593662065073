import Reconciliation.Properties.Map

/-! # Documents

Structured data as configuration files hold it and as a status is printed. A number that is not
written as a whole number is known by its spelling only.
-/
namespace Reconciliation

inductive Document where
  | null
  | flag (b : Bool)
  | integer (n : Int)
  | fraction (spelling : String)
  | text (s : String)
  | list (items : List Document)
  | table (fields : List (String × Document))
  deriving Inhabited, Repr

namespace Document

def text? : Document → Option String
  | text s => some s
  | _ => none

def texts? : Document → Option (List String)
  | list items => items.mapM text?
  | _ => none

def natural? (bits : Nat) : Document → Option Nat
  | integer (.ofNat n) => if n < 1 <<< bits then some n else none
  | _ => none

/-- A flag, a signed 64-bit integer, a text or a list of texts; nothing else is a property value. -/
def value? : Document → Option Value
  | flag b => some (.flag b)
  | integer n => (Text.int64OfInt? n).map .integer
  | text s => some (.text s)
  | list items => (items.mapM text?).map .list
  | null | fraction _ | table _ => none

def properties? : Document → Option Properties
  | table fields =>
    (fields.mapM fun (f : String × Document) => f.2.value?.map fun v => (f.1, v)).map
      Properties.ofList
  | _ => none

/-- The fields of a record. Besides a table, a list will do that has the values in the order of the
names, perhaps not all of them. -/
def fields? (names : List String) : Document → Option (List (String × Document))
  | table fields => some fields
  | list items => if items.length ≤ names.length then some (names.zip items) else none
  | _ => none

end Document

end Reconciliation
