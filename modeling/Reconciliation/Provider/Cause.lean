import Reconciliation.Provider.Id
import Reconciliation.Selector.Parser

/-! # Why a provider is not deployed

A cause names what went wrong; its reason is the class it belongs to and its detail the wording.
-/
namespace Reconciliation

inductive Reason where
  | serviceNotGettable
  | shadowed
  | validationFailed
  | requiredExtensionsUnavailable
  | duplicateName
  | requiredApplicationUnavailable
  | notAnExtensionType
  deriving DecidableEq, Repr

namespace Reason

def code : Reason → Nat
  | serviceNotGettable => 1
  | shadowed => 2
  | validationFailed => 3
  | requiredExtensionsUnavailable => 4
  | duplicateName => 5
  | requiredApplicationUnavailable => 6
  | notAnExtensionType => 7

def text : Reason → String
  | serviceNotGettable => "service-not-gettable"
  | shadowed => "shadowed"
  | validationFailed => "validation-failed"
  | requiredExtensionsUnavailable => "required-extensions-unavailable"
  | duplicateName => "duplicate-name"
  | requiredApplicationUnavailable => "required-application-unavailable"
  | notAnExtensionType => "not-an-extension-type"

end Reason

inductive Cause where
  | reservedName (name : String)
  | emptyName
  | badSelector (key : String) (error : SelectorError)
  | baseNotText (value : Value)
  | noBase (key : String)
  | unknownScope (key raw : String)
  | unobtainable (why : String)
  | noContract
  /-- Another provider of the group comes first. -/
  | lost (name : String) (id : ProviderId)
  | nameTaken (name : String) (kind : Kind) (id : ProviderId)
  | noneMatches (select : Selector)
  | noApplication
  /-- An application's own requirement is not met. -/
  | unsatisfied (selector : Selector)
  /-- A requirement of content is not met where it was attached. -/
  | unsatisfiedIn (selector : Selector) (application : String)
  | applicationUnavailable (kind : ContentKind) (application : String)
  deriving DecidableEq, Repr

namespace Cause

def reason : Cause → Reason
  | reservedName _ | emptyName | badSelector _ _ | baseNotText _ | noBase _ | unknownScope _ _ =>
    .validationFailed
  | unobtainable _ => .serviceNotGettable
  | noContract => .notAnExtensionType
  | lost _ _ => .shadowed
  | nameTaken _ _ _ => .duplicateName
  | noneMatches _ | noApplication => .requiredApplicationUnavailable
  | unsatisfied _ | unsatisfiedIn _ _ => .requiredExtensionsUnavailable
  | applicationUnavailable .resource _ => .requiredApplicationUnavailable
  | applicationUnavailable .extension _ => .requiredExtensionsUnavailable

def detail : Cause → String
  | reservedName name => s!"name '{name}' uses the reserved prefix"
  | emptyName => "empty name"
  | badSelector key error => s!"{key}: {error.message}"
  | baseNotText value => s!"whiteboard.application.base: expected a string, found {value.display}"
  | noBase key => s!"missing {key}"
  | unknownScope key raw => s!"{key}: unknown scope '{raw}'"
  | unobtainable why => s!"object not obtainable: {why}"
  | noContract => "no supported extension contract among the published types"
  | lost name id => s!"lost to '{name}' ({id})"
  | nameTaken name kind id => s!"name '{name}' already taken by {kind} {id}"
  | noneMatches select => s!"no application matches {select.source}"
  | noApplication => "no application available"
  | unsatisfied selector => s!"unsatisfied {selector.source}"
  | unsatisfiedIn selector application =>
    s!"unsatisfied {selector.source} in application '{application}'"
  | applicationUnavailable _ application => s!"application '{application}' is unavailable"

end Cause

end Reconciliation
