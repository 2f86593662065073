import Reconciliation.Provider.Content

/-! # Records and registrations

A record is a provider of any kind. A registration is a property map that may declare an
application, a resource and an extension at once; all of them share its id.
-/
namespace Reconciliation

inductive Record where
  | application (a : Application)
  | content (c : Content)
  deriving DecidableEq, Repr

namespace Record

def profile : Record → Profile
  | application a => a.profile
  | content c => c.profile

def kind : Record → Kind
  | application _ => .application
  | content c => c.kind.kind

def id (r : Record) : ProviderId :=
  r.profile.id

def name (r : Record) : String :=
  r.profile.name

def key (r : Record) : Key :=
  ⟨r.kind, r.id⟩

def fault : Record → Option Cause
  | application a => a.profile.fault
  | content c => c.fault

def application? : Record → Option Application
  | application a => some a
  | content _ => none

def content? : Record → Option Content
  | application _ => none
  | content c => some c

def ofProperties (kind : Kind) (id : ProviderId) (p : Properties) (source : Option ObjectSource) :
    Record :=
  match kind with
  | .application => application (Application.ofProperties id p)
  | .resource => content (Content.ofProperties .resource id p source)
  | .extension => content (Content.ofProperties .extension id p source)

end Record

structure Registration where
  properties : Properties
  /-- An id that was pinned from outside. -/
  id : Option ProviderId
  source : Option ObjectSource
  deriving DecidableEq, Repr

namespace Registration

/-- The id that the registration carries: the pinned one, or else its number. -/
def ownId? (r : Registration) : Option ProviderId :=
  r.id.or (((r.properties.get? Keys.serviceId).bind Value.int64?).map .registered)

/-- The id of the registration. One without an id of its own takes the token `next`; the second
part is the token after it. -/
def resolveId (r : Registration) (next : Nat) : ProviderId × Nat :=
  match r.ownId? with
  | some id => (id, next)
  | none => (.generated next, next + 1)

def kinds (r : Registration) : List Kind :=
  (if r.properties.contains Keys.applicationBase then [Kind.application] else []) ++
  (if r.properties.isTrue Keys.resource then [Kind.resource] else []) ++
  (if r.properties.isTrue Keys.extension then [Kind.extension] else [])

def records (r : Registration) (id : ProviderId) : List Record :=
  r.kinds.map fun k => Record.ofProperties k id r.properties r.source

end Registration

end Reconciliation
