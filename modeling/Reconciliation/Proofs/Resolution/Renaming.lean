import Reconciliation.Proofs.Provider.Order
import Reconciliation.Resolution.Pass

/-! # Other tokens

Tokens are generated as they are needed, and say nothing about a provider. A renaming puts others in
their place, and generated names follow.
-/
namespace Reconciliation

/-- Tokens in the place of others. No two become the same. -/
structure Renaming where
  token : Nat → Nat
  injective : Function.Injective token

namespace Renaming

variable (ρ : Renaming)

def onId : ProviderId → ProviderId
  | .registered n => .registered n
  | .generated t => .generated (ρ.token t)

def onKey (k : Key) : Key :=
  ⟨k.kind, ρ.onId k.id⟩

def onProfile (kind : Kind) (p : Profile) : Profile :=
  { p with
    id := ρ.onId p.id
    name := if p.nameGenerated then Profile.generatedName kind (ρ.onId p.id) else p.name }

def onApplication (a : Application) : Application :=
  { a with profile := ρ.onProfile .application a.profile }

def onContent (c : Content) : Content :=
  { c with profile := ρ.onProfile c.kind.kind c.profile }

def onRecord : Record → Record
  | .application a => .application (ρ.onApplication a)
  | .content c => .content (ρ.onContent c)

theorem onId_injective : Function.Injective ρ.onId := by
  intro a b h
  cases a <;> cases b <;> simp only [onId] at h
  · exact h
  · cases h
  · cases h
  · exact congrArg ProviderId.generated (ρ.injective (ProviderId.generated.inj h))

theorem onKey_injective : Function.Injective ρ.onKey := by
  intro a b h
  obtain ⟨hkind, hid⟩ := Key.mk.inj h
  cases a
  cases b
  exact congr (congrArg Key.mk hkind) (ρ.onId_injective hid)

@[simp] theorem id_onRecord (r : Record) : (ρ.onRecord r).id = ρ.onId r.id := by
  cases r <;> rfl

@[simp] theorem kind_onRecord (r : Record) : (ρ.onRecord r).kind = r.kind := by
  cases r <;> rfl

@[simp] theorem key_onRecord (r : Record) : (ρ.onRecord r).key = ρ.onKey r.key := by
  cases r <;> rfl

theorem key_onRecord_inj {r s : Record} :
    (ρ.onRecord r).key = (ρ.onRecord s).key ↔ r.key = s.key := by
  rw [key_onRecord, key_onRecord, ρ.onKey_injective.eq_iff]

@[simp] theorem fault_onRecord (r : Record) : (ρ.onRecord r).fault = r.fault := by
  cases r <;> rfl

@[simp] theorem suits_onRecord (r : Record) (runtime : Properties) :
    (ρ.onRecord r).profile.suits runtime = r.profile.suits runtime := by
  cases r <;> rfl

@[simp] theorem priority_onRecord (r : Record) :
    (ρ.onRecord r).profile.priority = r.profile.priority := by
  cases r <;> rfl

@[simp] theorem isDefault_onRecord (r : Record) : (ρ.onRecord r).isDefault = r.isDefault := by
  cases r <;> rfl

@[simp] theorem application?_onRecord (r : Record) :
    (ρ.onRecord r).application? = r.application?.map ρ.onApplication := by
  cases r <;> rfl

@[simp] theorem content?_onRecord (r : Record) :
    (ρ.onRecord r).content? = r.content?.map ρ.onContent := by
  cases r <;> rfl

theorem name_onRecord (r : Record) : (ρ.onRecord r).name =
    if r.profile.nameGenerated then Profile.generatedName r.kind (ρ.onId r.id) else r.name := by
  cases r <;> rfl

theorem onProfile_ofProperties (kind : Kind) (id : ProviderId) (p : Properties) :
    ρ.onProfile kind (.ofProperties id kind p) = .ofProperties (ρ.onId id) kind p := by
  cases hname : p.get? Keys.name <;> simp [onProfile, Profile.ofProperties, hname]

theorem onApplication_ofProperties (id : ProviderId) (p : Properties) :
    ρ.onApplication (.ofProperties id p) = .ofProperties (ρ.onId id) p := by
  have hprofile := ρ.onProfile_ofProperties .application id p
  have hdefault : (Application.ofProperties id p).isDefault =
      (Application.ofProperties (ρ.onId id) p).isDefault := by
    cases hname : p.get? Keys.name <;> simp [Application.ofProperties, Profile.ofProperties, hname]
  simp only [onApplication, hdefault]
  simp only [Application.ofProperties, ← hprofile]
  rfl

theorem onContent_ofProperties (kind : ContentKind) (id : ProviderId) (p : Properties)
    (source : Option ObjectSource) : ρ.onContent (.ofProperties kind id p source) =
      .ofProperties kind (ρ.onId id) p source := by
  have hprofile := ρ.onProfile_ofProperties kind.kind id p
  simp only [Content.ofProperties, ← hprofile]
  rfl

theorem onRecord_ofProperties (kind : Kind) (id : ProviderId) (p : Properties)
    (source : Option ObjectSource) : ρ.onRecord (.ofProperties kind id p source) =
      .ofProperties kind (ρ.onId id) p source := by
  cases kind with
  | application => exact congrArg Record.application (ρ.onApplication_ofProperties id p)
  | resource => exact congrArg Record.content (ρ.onContent_ofProperties .resource id p source)
  | extension => exact congrArg Record.content (ρ.onContent_ofProperties .extension id p source)

theorem records_onId (r : Registration) (id : ProviderId) :
    r.records (ρ.onId id) = (r.records id).map ρ.onRecord := by
  rw [Registration.records, Registration.records, List.map_map]
  exact List.map_congr_left fun kind _ => (ρ.onRecord_ofProperties kind id _ _).symm

def entry (e : Stored Record) : Stored Record :=
  e.map ρ.onRecord

def onSnapshot (s : Snapshot) : Snapshot :=
  ⟨s.changeCount, s.entries.map ρ.entry⟩

@[simp] theorem record_entry (e : Stored Record) : (ρ.entry e).record = ρ.onRecord e.record := rfl

@[simp] theorem entries_onSnapshot (s : Snapshot) :
    (ρ.onSnapshot s).entries = s.entries.map ρ.entry := rfl

theorem onSnapshot_advance (s : Snapshot) : ρ.onSnapshot s.advance = (ρ.onSnapshot s).advance := rfl

theorem onSnapshot_insert (s : Snapshot) (r : Record) :
    ρ.onSnapshot (s.insert r) = (ρ.onSnapshot s).insert (ρ.onRecord r) := by
  have hrest : (s.erase r.key).entries.map ρ.entry =
      ((ρ.onSnapshot s).erase (ρ.onRecord r).key).entries := by
    rw [Snapshot.erase, Snapshot.erase, entries_onSnapshot, List.filter_map]
    congr 1
    refine List.filter_congr fun e _ => ?_
    rw [Function.comp, Bool.eq_iff_iff, bne_iff_ne, bne_iff_ne, record_entry, Ne, Ne,
      key_onRecord_inj]
  simp only [onSnapshot, Snapshot.insert, List.map_cons, hrest]
  rfl

theorem onSnapshot_insertAll (s : Snapshot) (rs : List Record) :
    ρ.onSnapshot (s.insertAll rs) = (ρ.onSnapshot s).insertAll (rs.map ρ.onRecord) := by
  induction rs generalizing s with
  | nil => rfl
  | cons r rs ih => exact (ih (s.insert r)).trans (by rw [onSnapshot_insert]; rfl)

end Renaming

end Reconciliation
