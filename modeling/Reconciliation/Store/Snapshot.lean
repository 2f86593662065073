import Reconciliation.Provider.Record

/-! # Snapshots

A snapshot is a map from keys to records, each with the change count of the mutation that wrote it.
The order of its entries says nothing.
-/
namespace Reconciliation

structure Stored (α : Type) where
  revision : Nat
  record : α
  deriving DecidableEq, Repr

def Stored.map {α β : Type} (g : α → β) (e : Stored α) : Stored β :=
  ⟨e.revision, g e.record⟩

structure Snapshot where
  changeCount : Nat
  entries : List (Stored Record)
  deriving DecidableEq, Repr

namespace Snapshot

def empty : Snapshot := ⟨0, []⟩

def get? (s : Snapshot) (k : Key) : Option (Stored Record) :=
  s.entries.find? fun e => e.record.key == k

def contains (s : Snapshot) (k : Key) : Bool :=
  s.entries.any fun e => e.record.key == k

def erase (s : Snapshot) (k : Key) : Snapshot :=
  { s with entries := s.entries.filter fun e => e.record.key != k }

/-- Stores a record under its key, stamped with the change count. -/
def insert (s : Snapshot) (r : Record) : Snapshot :=
  { s with entries := ⟨s.changeCount, r⟩ :: (s.erase r.key).entries }

def insertAll (s : Snapshot) (rs : List Record) : Snapshot :=
  rs.foldl insert s

def eraseAll (s : Snapshot) (ks : List Key) : Snapshot :=
  ks.foldl erase s

def advance (s : Snapshot) : Snapshot :=
  { s with changeCount := s.changeCount + 1 }

def size (s : Snapshot) : Nat :=
  s.entries.length

def Keyed (s : Snapshot) : Prop :=
  (s.entries.map fun e => e.record.key).Nodup

instance (s : Snapshot) : Decidable s.Keyed :=
  inferInstanceAs (Decidable (List.Nodup _))

end Snapshot

end Reconciliation
