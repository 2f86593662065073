import Reconciliation.Provider.Application
import Reconciliation.Provider.Contract

/-! # Content

Resources and extensions. Their construction faults come first; then their object must be
obtainable, and an extension must be published under a contract that its object implements.
-/
namespace Reconciliation

/-- Where a registered object comes from. The number tells one source from another; a source
without a class refuses to hand its object out. -/
structure ObjectSource where
  number : Nat
  classOf : Option ObjectClass
  deriving DecidableEq, Repr

inductive Scope where
  | singleton
  | bundle
  | prototype
  deriving DecidableEq, Repr

namespace Scope

def text : Scope → String
  | singleton => "singleton"
  | bundle => "bundle"
  | prototype => "prototype"

/-- The scope that a text spells, blanks around it and ASCII case aside. -/
def ofText? (raw : String) : Option Scope :=
  [singleton, bundle, prototype].find? fun s => Text.sameLetters (Text.trim raw) s.text

def ofProperties (p : Properties) : Except Cause Scope :=
  match p.get? Keys.serviceScope with
  | none => .ok singleton
  | some v =>
    match ofText? v.display with
    | some s => .ok s
    | none => .error (.unknownScope Keys.serviceScope v.display)

end Scope

structure Content where
  profile : Profile
  kind : ContentKind
  /-- Which applications it is for. -/
  select : Option Selector
  scope : Scope
  source : Option ObjectSource
  deriving DecidableEq, Repr

namespace Content

def ofProperties (kind : ContentKind) (id : ProviderId) (p : Properties)
    (source : Option ObjectSource) : Content :=
  let profile := Profile.ofProperties id kind.kind p
  let select := Profile.selectorAt? p Keys.applicationSelect
  let scope := Scope.ofProperties p
  { profile := { profile with
      fault := profile.fault.or ((select.bind Profile.faultOf).or (Profile.faultOf scope)) }
    kind
    select := select.bind Except.toOption
    scope := scope.toOption.getD .singleton
    source }

def targetsDefault (c : Content) : Bool :=
  match c.select.bind Selector.equality? with
  | some (key, value) => Text.sameLetters key Keys.name && value == Keys.defaultName
  | none => false

/-- Whether the content may go to the default application when no other takes it. -/
def fallsBack (c : Content) : Bool :=
  c.select.isNone || c.targetsDefault

def published (c : Content) : List String :=
  match c.profile.properties.get? Keys.objectClass with
  | some v => v.strings
  | none => []

/-- The class of its object: read from the source or, without one, taken from the published
types. -/
def objectClass (c : Content) : Except Cause ObjectClass :=
  match c.source with
  | some source =>
    match source.classOf with
    | some k => .ok k
    | none => .error (.unobtainable "source refused acquisition")
  | none => .ok ⟨c.published.head?.getD "", c.published⟩

/-- The contracts it is published under and implements, each once and in their order. -/
def contracts (c : Content) : List Contract :=
  match c.objectClass with
  | .ok k => Contract.all.filter fun t =>
      (c.published.filterMap Contract.ofTypeName?).contains t && k.implements t.name
  | .error _ => []

def fault (c : Content) : Option Cause :=
  c.profile.fault.or <| (Profile.faultOf c.objectClass).or <|
    if c.kind == .extension && c.contracts.isEmpty then some .noContract else none

end Content

end Reconciliation
