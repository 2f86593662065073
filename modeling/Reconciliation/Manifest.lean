import Reconciliation.Document.Basic
import Reconciliation.Provider.Record

/-! # Manifests

A manifest lists registrations under the only field that it has. Each of them is a table of
properties.
-/
namespace Reconciliation

structure Manifest where
  providers : List Properties
  deriving DecidableEq, Repr

namespace Manifest

def readField? (m : Manifest) (field : String × Document) : Option Manifest :=
  match field with
  | ("provider", .list items) =>
    (items.mapM Document.properties?).map fun ps => { m with providers := ps }
  | _ => none

def ofDocument? : Document → Option Manifest
  | .table fields => fields.foldlM readField? ⟨[]⟩
  | _ => none

def registrations (m : Manifest) : List Registration :=
  m.providers.map fun p => ⟨p, none, none⟩

/-- The records of registrations made one after the other; `next` is the next free token. -/
def recordsFrom (next : Nat) : List Registration → List (List Record)
  | [] => []
  | r :: rest =>
    let (id, next) := r.resolveId next
    r.records id :: recordsFrom next rest

def records (m : Manifest) : List (List Record) :=
  recordsFrom 1 m.registrations

end Manifest

end Reconciliation
