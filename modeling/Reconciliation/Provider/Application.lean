import Reconciliation.Provider.BasePath
import Reconciliation.Provider.Profile

/-! # Applications

An application is a mount point to which content is attached. One named with the default marker is a
default application; any other one at the root stands in for it.
-/
namespace Reconciliation

structure Application where
  profile : Profile
  base : String
  isDefault : Bool
  deriving DecidableEq, Repr

namespace Application

def baseOf : Option Value → Except Cause String
  | some (.text raw) => .ok (BasePath.normalize raw)
  | some v => .error (.baseNotText v)
  | none => .error (.noBase Keys.applicationBase)

def ofProperties (id : ProviderId) (p : Properties) : Application :=
  let profile := Profile.ofProperties id .application p
  let base := baseOf (p.get? Keys.applicationBase)
  { profile := { profile with fault := profile.fault.or (Profile.faultOf base) }
    base := base.toOption.getD "/"
    isDefault := !profile.nameGenerated && profile.name == Keys.defaultName }

/-- The application that is there when nobody provides a default. It yields to any other. -/
def builtin (id : ProviderId) : Application :=
  ofProperties id <| Properties.ofList
    [(Keys.name, .text Keys.defaultName), (Keys.applicationBase, .text "/"),
     (Keys.serviceRanking, .integer Int32.minValue.toInt64)]

/-- Mounted at the root without being named the default. -/
def standsIn (a : Application) : Bool :=
  !a.isDefault && a.base == "/"

end Application

end Reconciliation
