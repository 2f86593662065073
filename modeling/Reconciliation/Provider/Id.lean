import Reconciliation.Text.Numeral

/-! # Identity of a provider

A provider is known by the number of its registration or, without one, by a token that was generated
for it. Every registered number comes before every token.
-/
namespace Reconciliation

inductive ProviderId where
  | registered (number : Int64)
  | generated (token : Nat)
  deriving DecidableEq, Repr

namespace ProviderId

def text : ProviderId → String
  | registered n => Text.decimal n
  | generated t => "g" ++ toString t

instance : ToString ProviderId := ⟨text⟩

protected def compare : ProviderId → ProviderId → Ordering
  | registered a, registered b => compare a.toInt b.toInt
  | registered _, generated _ => .lt
  | generated _, registered _ => .gt
  | generated a, generated b => compare a b

instance : Ord ProviderId := ⟨ProviderId.compare⟩

/-- Comparison by registered numbers alone: two tokens are level. -/
def compareRegistered : ProviderId → ProviderId → Ordering
  | registered a, registered b => compare a.toInt b.toInt
  | registered _, generated _ => .lt
  | generated _, registered _ => .gt
  | generated _, generated _ => .eq

end ProviderId

inductive ContentKind where
  | resource
  | extension
  deriving DecidableEq, Repr

inductive Kind where
  | application
  | resource
  | extension
  deriving DecidableEq, Repr

namespace Kind

def text : Kind → String
  | application => "application"
  | resource => "resource"
  | extension => "extension"

instance : ToString Kind := ⟨text⟩

def rank : Kind → Nat
  | application => 0
  | resource => 1
  | extension => 2

instance : Ord Kind := ⟨fun a b => compare a.rank b.rank⟩

end Kind

def ContentKind.kind : ContentKind → Kind
  | resource => .resource
  | extension => .extension

/-- One provider of one kind. A registration may declare providers of several kinds under one id. -/
structure Key where
  kind : Kind
  id : ProviderId
  deriving DecidableEq, Repr

end Reconciliation
