import Reconciliation.Resolution.Basic

/-! # Status

What a pass leaves to be seen from outside: names, ids and reasons as texts, without the providers
themselves.
-/
namespace Reconciliation

structure ApplicationStatus where
  name : String
  base : String
  id : String
  resources : List String
  extensions : List String
  deriving DecidableEq, Repr

def Accepted.status (a : Accepted) : ApplicationStatus :=
  { name := a.name
    base := a.base
    id := a.id.text
    resources := a.resources.map fun c => c.record.profile.name
    extensions := a.extensions.map fun c => c.record.profile.name }

structure FailedStatus where
  name : String
  id : String
  reason : String
  code : Nat
  detail : String
  deriving DecidableEq, Repr

def Failure.status (f : Failure) : FailedStatus :=
  { name := f.record.name
    id := f.record.id.text
    reason := f.cause.reason.text
    code := f.cause.reason.code
    detail := f.cause.detail }

structure Status where
  /-- Advances with every change of the store and every replacement of the runtime properties. -/
  changeCount : Nat
  /-- The number of the pass. -/
  pass : Nat
  defaultApplication : Option String
  applications : List ApplicationStatus
  failedApplications : List FailedStatus
  failedResources : List FailedStatus
  failedExtensions : List FailedStatus
  deriving DecidableEq, Repr

namespace Status

def ofResolution (r : Resolution) (changeCount pass : Nat) : Status :=
  { changeCount
    pass
    defaultApplication := r.defaultApplication.map ProviderId.text
    applications := r.applications.map Accepted.status
    failedApplications := r.failedApplications.map Failure.status
    failedResources := r.failedResources.map Failure.status
    failedExtensions := r.failedExtensions.map Failure.status }

def application? (s : Status) (base : String) : Option ApplicationStatus :=
  s.applications.find? fun a => a.base == base

end Status

end Reconciliation
