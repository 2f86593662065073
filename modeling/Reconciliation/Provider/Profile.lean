import Reconciliation.Provider.Cause
import Reconciliation.Provider.Keys
import Reconciliation.Selector.Matching

/-! # What every provider declares

What is read the same way for all kinds: name, priority, target and requirements. Of several faults
the first one counts, in the order name, target, requirements.
-/
namespace Reconciliation

structure Profile where
  id : ProviderId
  name : String
  nameGenerated : Bool
  priority : Int
  properties : Properties
  /-- What is wrong with the declaration. -/
  fault : Option Cause
  /-- Which runtimes it is for; absent, it is for all. -/
  target : Option Selector
  requires : List Selector
  deriving DecidableEq, Repr

namespace Profile

def generatedName (kind : Kind) (id : ProviderId) : String :=
  s!".generated.{kind}.{id}"

def startsReserved (name : String) : Bool :=
  name.toList.head? == some Keys.reservedMark

def nameFault (defaultAllowed : Bool) (name : String) : Option Cause :=
  if startsReserved name && !(defaultAllowed && name == Keys.defaultName) then
    some (.reservedName name)
  else if name.isEmpty then some .emptyName
  else none

/-- A ranking is held to 32 bits. -/
def clampPriority (n : Int) : Int :=
  max Int32.minValue.toInt (min n Int32.maxValue.toInt)

def readSelector (key raw : String) : Except Cause Selector :=
  (Selector.parse raw).mapError (.badSelector key)

def faultOf {α : Type} : Except Cause α → Option Cause
  | .ok _ => none
  | .error e => some e

def selectorAt? (p : Properties) (key : String) : Option (Except Cause Selector) :=
  (p.get? key).map fun v => readSelector key v.display

def selectorsAt (p : Properties) (key : String) : List (Except Cause Selector) :=
  match p.get? key with
  | some v => v.strings.map (readSelector key)
  | none => []

def ofProperties (id : ProviderId) (kind : Kind) (p : Properties) : Profile :=
  let explicit := (p.get? Keys.name).map Value.display
  let target := selectorAt? p Keys.target
  let requires := selectorsAt p Keys.extensionSelect
  { id
    name := explicit.getD (generatedName kind id)
    nameGenerated := explicit.isNone
    priority := match (p.get? Keys.serviceRanking).bind Value.int64? with
      | some n => clampPriority n.toInt
      | none => 0
    properties := p
    fault := (explicit.bind (nameFault (kind == .application))).or
      ((target.bind faultOf).or (requires.findSome? faultOf))
    target := target.bind Except.toOption
    requires := requires.filterMap Except.toOption }

def suits (p : Profile) (runtime : Properties) : Bool :=
  p.target.all fun s => s.accepts runtime

end Profile

end Reconciliation
