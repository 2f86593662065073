import Reconciliation.Properties.Map

/-! # Runtime properties

A replacement first stores the new properties and then advances the revision; a reader that takes
the revision first never pairs it with older properties.
-/
namespace Reconciliation

structure Runtime where
  properties : Properties
  revision : Nat
  deriving DecidableEq, Repr

namespace Runtime

def ofProperties (p : Properties) : Runtime := ⟨p, 0⟩

def store (r : Runtime) (p : Properties) : Runtime :=
  { r with properties := p }

def advance (r : Runtime) : Runtime :=
  { r with revision := r.revision + 1 }

def replace (r : Runtime) (p : Properties) : Runtime :=
  (r.store p).advance

end Runtime

end Reconciliation
