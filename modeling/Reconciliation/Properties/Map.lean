import Reconciliation.Dictionary
import Reconciliation.Properties.Value

/-! # Property maps

A map keeps its keys as they were written; lookup falls back to the first key that is the same up to
ASCII case.
-/
namespace Reconciliation

structure Properties where
  table : Dictionary Value
  deriving DecidableEq, Repr

namespace Properties

def empty : Properties := ⟨.empty⟩

instance : Inhabited Properties := ⟨empty⟩

def insert (p : Properties) (k : String) (v : Value) : Properties :=
  ⟨p.table.insert k v⟩

def ofList (pairs : List (String × Value)) : Properties :=
  ⟨.ofList pairs⟩

def entries (p : Properties) : List (String × Value) :=
  p.table.entries

def size (p : Properties) : Nat :=
  p.table.size

def entry? (p : Properties) (k : String) : Option Value :=
  p.table.get? k

/-- The value under this key, or else under the first key that differs in ASCII case only. -/
def get? (p : Properties) (k : String) : Option Value :=
  match p.entry? k with
  | some v => some v
  | none => (p.entries.find? fun e => Text.sameLetters e.1 k).map (·.2)

def text? (p : Properties) (k : String) : Option String :=
  (p.get? k).bind Value.text?

def contains (p : Properties) (k : String) : Bool :=
  (p.get? k).isSome

def isTrue (p : Properties) (k : String) : Bool :=
  (p.get? k).any Value.isTrue

end Properties

end Reconciliation
