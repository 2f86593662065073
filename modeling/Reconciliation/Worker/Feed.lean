/-! # Feeds

A feed keeps the latest events for its reader. When more come than it has room for, the oldest are
lost, and the reader is told how many.
-/
namespace Reconciliation

structure Feed (α : Type) where
  room : Nat
  pending : List α
  deriving DecidableEq, Repr

namespace Feed

variable {α : Type}

/-- The room is the smallest power of two that is not below the wish. -/
def roomFor (wish : Nat) : Nat :=
  wish.nextPowerOfTwo

def withRoom (wish : Nat) : Feed α := ⟨roomFor wish, []⟩

def emit (f : Feed α) (e : α) : Feed α :=
  { f with pending := f.pending ++ [e] }

/-- What the reader finds: how many events were lost, and those that are left. -/
def read (f : Feed α) : Nat × List α :=
  let lost := f.pending.length - f.room
  (lost, f.pending.drop lost)

def drain (f : Feed α) : Feed α :=
  { f with pending := [] }

end Feed

end Reconciliation
