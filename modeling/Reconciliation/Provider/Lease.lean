import Reconciliation.Provider.Content

/-! # Leases

To read the class of an object, a lease on it is taken from its source and given back. The ledger
counts the leases of each source. What was read is kept with the provider, so a provider takes one
lease at most; `reads` names the providers that have done so.
-/
namespace Reconciliation

structure Tally where
  granted : Nat
  held : Nat
  deriving DecidableEq, Repr

structure Ledger (ι : Type) where
  tallies : List (Nat × Tally)
  /-- Providers whose object's class is known. -/
  reads : List ι
  deriving Repr

namespace Ledger

variable {ι : Type}

def empty : Ledger ι := ⟨[], []⟩

def tally (l : Ledger ι) (source : Nat) : Tally :=
  (l.tallies.lookup source).getD ⟨0, 0⟩

def setTally (l : Ledger ι) (source : Nat) (t : Tally) : Ledger ι :=
  { l with tallies := (source, t) :: l.tallies.filter fun e => e.1 != source }

/-- Takes a lease; a source that refuses leaves the ledger as it is. -/
def acquire (l : Ledger ι) (s : ObjectSource) : Option (ObjectClass × Ledger ι) :=
  s.classOf.map fun k =>
    let t := l.tally s.number
    (k, l.setTally s.number ⟨t.granted + 1, t.held + 1⟩)

def release (l : Ledger ι) (s : ObjectSource) : Ledger ι :=
  let t := l.tally s.number
  l.setTally s.number ⟨t.granted, t.held - 1⟩

def classify (l : Ledger ι) (s : ObjectSource) : Option ObjectClass × Ledger ι :=
  match l.acquire s with
  | some (k, held) => (some k, held.release s)
  | none => (none, l)

def readClass [DecidableEq ι] (l : Ledger ι) (i : ι) (c : Content) : Ledger ι :=
  if i ∈ l.reads then l
  else
    let l := match c.source with
      | some s => (l.classify s).2
      | none => l
    { l with reads := i :: l.reads }

/-- Looks at a provider's status: the class matters only when the declaration is sound. -/
def readStatus [DecidableEq ι] (l : Ledger ι) (i : ι) (c : Content) : Ledger ι :=
  if c.profile.fault.isSome then l else l.readClass i c

end Ledger

end Reconciliation
