import Reconciliation.Store.Snapshot

/-! # The store

The store holds the latest snapshot and the tokens that are still free. A mutation answers with the
new change count and is heard by the listener; one that has no effect is not.
-/
namespace Reconciliation

inductive Mutation where
  /-- Adds every provider that a registration declares. -/
  | register (r : Registration)
  /-- Adds one provider. -/
  | upsert (r : Record)
  /-- Puts a registration in the place of all providers under an id. -/
  | update (id : ProviderId) (r : Registration)
  | unregister (id : ProviderId)
  | remove (k : Key)
  deriving DecidableEq, Repr

structure Store where
  snapshot : Snapshot
  /-- The next token to generate. -/
  nextToken : Nat
  deriving DecidableEq, Repr

/-- What a mutation answers. `change` is the new change count, if anything was changed. -/
structure Mutation.Answer where
  id : Option ProviderId
  change : Option Nat
  deriving DecidableEq, Repr

namespace Store

def empty (nextToken : Nat) : Store := ⟨.empty, nextToken⟩

def changeCount (s : Store) : Nat :=
  s.snapshot.changeCount

def keysOf (id : ProviderId) : List Key :=
  [⟨.application, id⟩, ⟨.resource, id⟩, ⟨.extension, id⟩]

def publish (s : Store) (next : Snapshot) : Store × Option Nat :=
  ({ s with snapshot := next }, some next.changeCount)

/-- Adds records as one mutation; none is no mutation. -/
def upsertAll (s : Store) (rs : List Record) : Store × Option Nat :=
  if rs.isEmpty then (s, none) else s.publish (s.snapshot.advance.insertAll rs)

def upsert (s : Store) (r : Record) : Store × Option Nat :=
  s.upsertAll [r]

/-- Adds the providers of a registration under one id, which is answered too. -/
def register (s : Store) (r : Registration) : Store × ProviderId × Option Nat :=
  let (id, next) := r.resolveId s.nextToken
  let (s, change) := { s with nextToken := next }.upsertAll (r.records id)
  (s, id, change)

/-- Replaces all that is stored under `id` by what the registration declares. Always a mutation. -/
def update (s : Store) (id : ProviderId) (r : Registration) : Store × Option Nat :=
  let rs := r.records id
  let dropped := (keysOf id).filter fun k => !rs.any fun r => r.kind == k.kind
  s.publish ((s.snapshot.advance.eraseAll dropped).insertAll rs)

/-- Removes the given keys as one mutation, unless none of them is taken. -/
def eraseAll (s : Store) (ks : List Key) : Store × Option Nat :=
  if ks.any s.snapshot.contains then s.publish (s.snapshot.advance.eraseAll ks) else (s, none)

def unregister (s : Store) (id : ProviderId) : Store × Option Nat :=
  s.eraseAll (keysOf id)

def remove (s : Store) (k : Key) : Store × Option Nat :=
  s.eraseAll [k]

def mutate (s : Store) : Mutation → Store × Mutation.Answer
  | .register r =>
    let (s, id, change) := s.register r
    (s, ⟨some id, change⟩)
  | .upsert r =>
    let (s, change) := s.upsert r
    (s, ⟨some r.id, change⟩)
  | .update id r =>
    let (s, change) := s.update id r
    (s, ⟨none, change⟩)
  | .unregister id =>
    let (s, change) := s.unregister id
    (s, ⟨none, change⟩)
  | .remove k =>
    let (s, change) := s.remove k
    (s, ⟨none, change⟩)

end Store

end Reconciliation
