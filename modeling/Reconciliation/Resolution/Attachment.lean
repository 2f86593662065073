import Reconciliation.Provider.Content

/-! # Where content may be attached

Content with the default marker goes to the acting default, content with a selector wherever that
matches, and content without one to whoever is neither a default nor a stand-in for it.
-/
namespace Reconciliation

def Content.attachesTo (c : Content) (a : Application) (actsAsDefault : Bool) : Bool :=
  if c.targetsDefault then actsAsDefault
  else
    match c.select with
    | some s => s.accepts a.profile.properties
    | none => !a.isDefault && !a.standsIn

end Reconciliation
