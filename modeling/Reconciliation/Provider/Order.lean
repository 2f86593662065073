import Reconciliation.Provider.Record

/-! # The order of providers

Higher priority comes first, then registered ids in increasing order ahead of generated ones, then
names, then tokens. Every collision rule and every list of the outcome follows it.
-/
namespace Reconciliation

def Profile.compare (a b : Profile) : Ordering :=
  (Ord.compare b.priority a.priority).then <|
  (a.id.compareRegistered b.id).then <|
  (Ord.compare a.name b.name).then <|
  Ord.compare a.id b.id

/-- The order of records of any kind: where profiles are level, the kind decides. -/
def Record.compare (a b : Record) : Ordering :=
  (a.profile.compare b.profile).then (Ord.compare a.kind b.kind)

end Reconciliation
