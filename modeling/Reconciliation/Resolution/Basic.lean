import Reconciliation.Provider.Order
import Reconciliation.Store.Snapshot

/-! # Resolutions

The outcome of one pass: the applications that are deployed, with their content, and every provider
that is not, with its cause.
-/
namespace Reconciliation

structure Accepted where
  application : Stored Application
  resources : List (Stored Content)
  extensions : List (Stored Content)
  deriving DecidableEq, Repr

structure Fingerprint where
  application : ProviderId
  revision : Nat
  content : List (Kind × ProviderId × Nat)
  deriving DecidableEq, Repr

namespace Fingerprint

def compareContent (a b : Kind × ProviderId × Nat) : Ordering :=
  (compare a.1 b.1).then <| (compare a.2.1 b.2.1).then <| compare a.2.2 b.2.2

end Fingerprint

namespace Accepted

def base (a : Accepted) : String :=
  a.application.record.base

def id (a : Accepted) : ProviderId :=
  a.application.record.profile.id

def name (a : Accepted) : String :=
  a.application.record.profile.name

def content (a : Accepted) : List (Stored Content) :=
  a.resources ++ a.extensions

/-- Application and content by id and revision. A deployment is reloaded when this changes. -/
def fingerprint (a : Accepted) : Fingerprint :=
  { application := a.id
    revision := a.application.revision
    content := (a.content.map fun c => (c.record.kind.kind, c.record.profile.id, c.revision)).mergeSort
      fun x y => (Fingerprint.compareContent x y).isLE }

end Accepted

structure Failure where
  record : Record
  cause : Cause
  deriving DecidableEq, Repr

structure Resolution where
  /-- The change count of the snapshot. -/
  changeCount : Nat
  /-- In the order of their base paths. -/
  applications : List Accepted
  defaultApplication : Option ProviderId
  failedApplications : List Failure
  failedResources : List Failure
  failedExtensions : List Failure
  deriving DecidableEq, Repr

namespace Resolution

def application? (r : Resolution) (base : String) : Option Accepted :=
  r.applications.find? fun a => a.base == base

def failures (r : Resolution) : Kind → List Failure
  | .application => r.failedApplications
  | .resource => r.failedResources
  | .extension => r.failedExtensions

def failure? (r : Resolution) (k : Key) : Option Failure :=
  (r.failures k.kind).find? fun f => f.record.id == k.id

end Resolution

end Reconciliation
