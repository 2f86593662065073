import Reconciliation.Proofs.Provider.Declaration

/-! # Faults

A provider that is at fault is so by itself: its declaration is not valid, its object cannot be had,
or it is not what it says. No fault puts the blame on another provider or on the lack of one.
-/
namespace Reconciliation

/-- The reasons for which a provider fails before any other is looked at. -/
def Reason.isFault : Reason → Bool
  | validationFailed | serviceNotGettable | notAnExtensionType => true
  | shadowed | duplicateName => false
  | requiredApplicationUnavailable | requiredExtensionsUnavailable => false

namespace Profile

theorem isFault_of_nameFault {allowed : Bool} {name : String} {cause : Cause}
    (h : nameFault allowed name = some cause) : cause.reason.isFault = true := by
  unfold nameFault at h
  split at h
  · cases h
    rfl
  · split at h <;> cases h
    rfl

theorem isFault_of_readSelector {key raw : String} {cause : Cause}
    (h : faultOf (readSelector key raw) = some cause) : cause.reason.isFault = true := by
  unfold readSelector at h
  cases hp : Selector.parse raw <;> rw [hp] at h <;> cases h
  rfl

theorem isFault_of_selectorAt? {p : Properties} {key : String} {cause : Cause}
    (h : (selectorAt? p key).bind faultOf = some cause) : cause.reason.isFault = true := by
  obtain ⟨x, hx, hf⟩ := Option.bind_eq_some_iff.1 h
  obtain ⟨v, -, rfl⟩ := Option.map_eq_some_iff.1 hx
  exact isFault_of_readSelector hf

theorem isFault_of_selectorsAt {p : Properties} {key : String} {cause : Cause}
    (h : (selectorsAt p key).findSome? faultOf = some cause) : cause.reason.isFault = true := by
  obtain ⟨x, hx, hf⟩ := List.exists_of_findSome?_eq_some h
  unfold selectorsAt at hx
  split at hx
  · obtain ⟨raw, -, rfl⟩ := List.mem_map.1 hx
    exact isFault_of_readSelector hf
  · cases hx

theorem isFault_of_fault {id : ProviderId} {kind : Kind} {p : Properties} {cause : Cause}
    (h : (ofProperties id kind p).fault = some cause) : cause.reason.isFault = true := by
  rcases Option.or_eq_some_iff.1 h with h | ⟨-, h⟩
  · obtain ⟨name, -, hname⟩ := Option.bind_eq_some_iff.1 h
    exact isFault_of_nameFault hname
  · rcases Option.or_eq_some_iff.1 h with h | ⟨-, h⟩
    · exact isFault_of_selectorAt? h
    · exact isFault_of_selectorsAt h

end Profile

theorem Application.isFault_of_base {v : Option Value} {cause : Cause}
    (h : Profile.faultOf (baseOf v) = some cause) : cause.reason.isFault = true := by
  unfold baseOf at h
  split at h <;> cases h <;> rfl

theorem Scope.isFault_of_scope {p : Properties} {cause : Cause}
    (h : Profile.faultOf (ofProperties p) = some cause) : cause.reason.isFault = true := by
  unfold ofProperties at h
  split at h
  · cases h
  · split at h <;> cases h
    rfl

theorem Content.isFault_of_objectClass {c : Content} {cause : Cause}
    (h : Profile.faultOf c.objectClass = some cause) : cause.reason.isFault = true := by
  unfold objectClass at h
  split at h
  · split at h <;> cases h
    rfl
  · cases h

theorem Content.isFault_of_fault {kind : ContentKind} {id : ProviderId} {p : Properties}
    {source : Option ObjectSource} {cause : Cause}
    (h : (ofProperties kind id p source).fault = some cause) : cause.reason.isFault = true := by
  rcases Option.or_eq_some_iff.1 h with h | ⟨-, h⟩
  · rcases Option.or_eq_some_iff.1 h with h | ⟨-, h⟩
    · exact Profile.isFault_of_fault h
    · rcases Option.or_eq_some_iff.1 h with h | ⟨-, h⟩
      · exact Profile.isFault_of_selectorAt? h
      · exact Scope.isFault_of_scope h
  · rcases Option.or_eq_some_iff.1 h with h | ⟨-, h⟩
    · exact isFault_of_objectClass h
    · split at h <;> cases h
      rfl

theorem Record.Declared.isFault_of_fault {r : Record} (h : r.Declared) {cause : Cause}
    (hf : r.fault = some cause) : cause.reason.isFault = true := by
  obtain ⟨kind, id, p, source, rfl⟩ := h
  cases kind with
  | application =>
    rcases Option.or_eq_some_iff.1 hf with h | ⟨-, h⟩
    · exact Profile.isFault_of_fault h
    · exact Application.isFault_of_base h
  | resource => exact Content.isFault_of_fault hf
  | extension => exact Content.isFault_of_fault hf

end Reconciliation
