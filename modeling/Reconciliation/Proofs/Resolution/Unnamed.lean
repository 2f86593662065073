import Reconciliation.Proofs.Provider.Fault
import Reconciliation.Proofs.Provider.Naming
import Reconciliation.Proofs.Resolution.Conflict
import Reconciliation.Proofs.Resolution.Inertness
import Reconciliation.Proofs.Resolution.Rivalry

/-! # Providers without a name

A provider that is not given a name has its name to itself in every pass, and the rule of names
never has to do with it, neither as a loser nor as a winner.
-/
namespace Reconciliation

namespace Record

def Unnamed (r : Record) : Prop :=
  r.profile.properties.get? Keys.name = none

instance (r : Record) : Decidable r.Unnamed :=
  inferInstanceAs (Decidable (_ = none))

theorem Declared.nameGenerated_iff {r : Record} (h : r.Declared) :
    r.profile.nameGenerated = true ↔ r.Unnamed := by
  obtain ⟨kind, id, p, source, rfl⟩ := h
  cases kind <;> exact Option.isNone_iff_eq_none.trans Option.map_eq_none_iff

/-- Whoever is called like a provider that is not named is not named either, and has its key. -/
theorem Declared.unnamed_of_name_eq {r x : Record} (hr : r.Declared) (hx : x.Declared)
    (hf : x.fault = none) (hu : r.Unnamed) (hname : x.name = r.name) :
    x.Unnamed ∧ x.key = r.key := by
  have hrname := hr.name_of_generated (hr.nameGenerated_iff.2 hu)
  have hxu : x.Unnamed := by
    rw [← hx.nameGenerated_iff]
    by_contra hg
    exact Profile.ne_generatedName (hx.unmarked hf (by simpa using hg)) r.kind r.id
      (hname.trans hrname)
  have hxname := hx.name_of_generated (hx.nameGenerated_iff.2 hxu)
  obtain ⟨hkind, hid⟩ := Profile.generatedName_inj.1 (hxname.symm.trans (hname.trans hrname))
  exact ⟨hxu, by rw [key, key, hkind, hid]⟩

theorem builtin_named (id : ProviderId) : ¬ (application (.builtin id)).Unnamed := by
  have h : (application (.builtin id)).profile.properties.get? Keys.name =
      some (.text Keys.defaultName) := rfl
  simp [Unnamed, h]

end Record

namespace Reconciler

structure SparesUnnamed (r : Reconciler) (s : Snapshot) (runtime : Properties) : Prop where
  /-- Nobody who is admitted shares its name. -/
  alone : ∀ e ∈ (r.pools s runtime).admitted, e.record.Unnamed →
    ∀ x ∈ (r.pools s runtime).admitted, x.record.name = e.record.name → x = e
  /-- In the rule of names it neither loses nor wins. -/
  uncontested : ∀ i x w, (r.pools s runtime).afterPath[i]? = some x →
    Pass.beatenBy .name ((r.pools s runtime).afterPath.take i) x = some w →
    ¬ x.record.Unnamed ∧ ¬ w.record.Unnamed
  /-- A failure for the sake of a name is not its own, and does not give it as the winner. -/
  unblamed : ∀ kind, ∀ f ∈ (r.run s runtime).failures kind, f.cause.reason = .duplicateName →
    ∀ e ∈ Pass.candidates r.builtin s, e.record.Unnamed →
      f.record.key ≠ e.record.key ∧
        ∀ name k id, f.cause = .nameTaken name k id → ⟨k, id⟩ ≠ e.record.key

variable {id : ProviderId} {s : Snapshot} {runtime : Properties} {e x : Stored Record}

theorem candidates_declared (hs : s.Declared) {r : Reconciler}
    (hb : (Record.application r.builtin).Declared) :
    ∀ e ∈ Pass.candidates r.builtin s, e.record.Declared := by
  intro e he
  rcases List.mem_append.1 he with he | he
  · exact hs e he
  · obtain rfl := List.mem_singleton.1 he
    exact hb

theorem stored_of_not_builtin (he : e ∈ Pass.candidates (.builtin id) s)
    (hne : e.record ≠ .application (.builtin id)) : e ∈ s.entries := by
  rcases List.mem_append.1 he with he | he
  · exact he
  · obtain rfl := List.mem_singleton.1 he
    exact absurd rfl hne

theorem stored_of_unnamed (he : e ∈ Pass.candidates (.builtin id) s) (hu : e.record.Unnamed) :
    e ∈ s.entries := by
  refine stored_of_not_builtin he fun h => ?_
  rw [h] at hu
  exact Record.builtin_named id hu

theorem stored_of_not_default (he : e ∈ Pass.candidates (.builtin id) s)
    (hd : e.record.isDefault = false) : e ∈ s.entries := by
  refine stored_of_not_builtin he fun h => ?_
  rw [h] at hd
  exact Bool.noConfusion ((Application.builtin_sound id).1.symm.trans hd)

theorem unnamed_alone (h : s.Keyed) (hs : s.Declared)
    (he : e ∈ (pools ⟨.builtin id⟩ s runtime).admitted) (hu : e.record.Unnamed)
    (hx : x ∈ (pools ⟨.builtin id⟩ s runtime).admitted) (hname : x.record.name = e.record.name) :
    x = e := by
  have hdeclared := candidates_declared hs (r := ⟨.builtin id⟩) (Application.builtin_declared id)
  obtain ⟨hec, -, -⟩ := Pass.mem_admitted.1 he
  obtain ⟨hxc, hf, -⟩ := Pass.mem_admitted.1 hx
  obtain ⟨hxu, hkey⟩ := (hdeclared e hec).unnamed_of_name_eq (hdeclared x hxc) hf hu hname
  exact List.inj_on_of_nodup_map h (stored_of_unnamed hxc hxu) (stored_of_unnamed hec hu) hkey

theorem mem_admitted_of_afterPath {r : Reconciler}
    (he : e ∈ (r.pools s runtime).afterPath) : e ∈ (r.pools s runtime).admitted :=
  (Pass.afterRule_sublist _ _).subset he

theorem of_beaten_by_name {r : Reconciler} {i : Nat} {w : Stored Record}
    (hw : Pass.beatenBy .name ((r.pools s runtime).afterPath.take i) x = some w) :
    w ∈ (r.pools s runtime).afterPath ∧ w.record.isDefault = false ∧ x.record.isDefault = false ∧
      w.record.name = x.record.name ∧ w.record.id ≠ x.record.id := by
  obtain ⟨hmem, hrivals⟩ := Pass.rivals_of_beatenBy hw
  have hid := (Pass.beatenBy_eq_some_iff.1 hw).2 rfl
  obtain ⟨⟨hwd, hxd⟩, hname⟩ : (w.record.isDefault = false ∧ x.record.isDefault = false) ∧
      w.record.name = x.record.name := by simpa [Record.rivals] using hrivals
  exact ⟨List.mem_of_mem_take hmem, hwd, hxd, hname, hid⟩

/-- Loser and winner share a name without being one, so neither has its name to itself. -/
theorem named_of_beaten (h : s.Keyed) (hs : s.Declared) {i : Nat} {w : Stored Record}
    (hx : (pools ⟨.builtin id⟩ s runtime).afterPath[i]? = some x)
    (hw : Pass.beatenBy .name ((pools ⟨.builtin id⟩ s runtime).afterPath.take i) x = some w) :
    ¬ x.record.Unnamed ∧ ¬ w.record.Unnamed := by
  obtain ⟨hwp, -, -, hname, hid⟩ := of_beaten_by_name hw
  have hxa := mem_admitted_of_afterPath (List.mem_of_getElem? hx)
  have hwa := mem_admitted_of_afterPath hwp
  constructor
  · intro hu
    exact hid (by rw [unnamed_alone h hs hxa hu hwa hname])
  · intro hu
    exact hid (by rw [unnamed_alone h hs hwa hu hxa hname.symm])

/-- A named provider that is not the built-in default shares its key with no unnamed one. -/
theorem key_ne_of_named (h : s.Keyed)
    (hx : x ∈ Pass.candidates (.builtin id) s) (hd : x.record.isDefault = false)
    (hn : ¬ x.record.Unnamed) (he : e ∈ Pass.candidates (.builtin id) s)
    (hu : e.record.Unnamed) : x.record.key ≠ e.record.key := by
  intro hkey
  have hxe := List.inj_on_of_nodup_map h (stored_of_not_default hx hd)
    (stored_of_unnamed he hu) hkey
  rw [hxe] at hn
  exact hn hu

theorem lostTo_name_of_reported {r : Reconciler} {f : Failure}
    (hdeclared : ∀ e ∈ Pass.candidates r.builtin s, e.record.Declared)
    (hf : f ∈ r.reported s runtime) (hreason : f.cause.reason = .duplicateName) :
    f ∈ Pass.lostTo .name (r.pools s runtime).afterPath := by
  rcases reported_cases hf with hf | ⟨rule, hf⟩ | hf
  · obtain ⟨e, he, hfault⟩ := List.mem_filterMap.1 hf
    obtain ⟨cause, hcause, rfl⟩ := Option.map_eq_some_iff.1 hfault
    have hown := (hdeclared e he).isFault_of_fault hcause
    rw [hreason] at hown
    cases hown
  · obtain ⟨i, x, w, -, -, rfl⟩ := Pass.mem_lostTo.1 hf
    cases rule with
    | name => exact hf
    | path | default => cases hreason
  · have hyields := Pass.not_yields_of_field hf
    rw [Pass.yields, hreason] at hyields
    cases hyields

/-- Generated names are out of everybody's way in every pass over declared providers. -/
theorem run_spares_unnamed (id : ProviderId) {s : Snapshot} (h : s.Keyed) (hs : s.Declared)
    (runtime : Properties) : SparesUnnamed ⟨.builtin id⟩ s runtime where
  alone _ he hu _ hx hname := unnamed_alone h hs he hu hx hname
  uncontested _ _ _ hx hw := named_of_beaten h hs hx hw
  unblamed := by
    intro kind f hf hreason e he hu
    have hdeclared := candidates_declared hs (r := ⟨.builtin id⟩) (Application.builtin_declared id)
    have hlost := lostTo_name_of_reported hdeclared (mem_reported_of_failures hf) hreason
    obtain ⟨i, x, w, hx, hw, rfl⟩ := Pass.mem_lostTo.1 hlost
    obtain ⟨hwp, hwd, hxd, -, -⟩ := of_beaten_by_name hw
    obtain ⟨hxn, hwn⟩ := named_of_beaten h hs hx hw
    have hxc := (Pass.mem_admitted.1 (mem_admitted_of_afterPath (List.mem_of_getElem? hx))).1
    have hwc := (Pass.mem_admitted.1 (mem_admitted_of_afterPath hwp)).1
    refine ⟨key_ne_of_named h hxc hxd hxn he hu, ?_⟩
    rintro name k wid ⟨⟩
    exact key_ne_of_named h hwc hwd hwn he hu

end Reconciler

namespace Shop

def stranger : Record :=
  .ofProperties .resource (.registered 13) .empty none

/-- Two providers are called `log`, and the stranger is not called anything. -/
def depot : Snapshot := ⟨3, [⟨1, logging⟩, ⟨2, ledger⟩, ⟨3, stranger⟩]⟩

theorem depot_admitted : Pass.admitted (Pass.candidates reconciler.builtin depot) .empty =
    Pass.candidates reconciler.builtin depot :=
  Pass.admitted_eq_self (by decide +kernel) (by decide +kernel)

theorem depot_declared : depot.Declared := by
  simp only [Snapshot.Declared, depot, List.forall_mem_cons]
  exact ⟨⟨_, _, _, _, rfl⟩, ⟨_, _, _, _, rfl⟩, ⟨_, _, _, _, rfl⟩, by simp⟩

theorem ledger_reported : ⟨ledger, .nameTaken "log" .extension (.registered 2)⟩ ∈
    (reconciler.run depot .empty).failures .resource := by
  rw [Reconciler.failures_eq, Pass.sortFailures, List.mem_mergeSort, Reconciler.reported,
    Reconciler.verdicts, Reconciler.field, Pass.pools, depot_admitted]
  decide +kernel

/-- The stranger has nothing to do with the quarrel about a name. -/
theorem stranger_spared : depot.Keyed ∧ depot.Declared ∧ stranger.Unnamed ∧
    ∃ f ∈ (reconciler.run depot .empty).failures .resource,
      f = ⟨ledger, .nameTaken "log" .extension (.registered 2)⟩ ∧
      f.record.key ≠ stranger.key ∧ ⟨.extension, .registered 2⟩ ≠ stranger.key := by
  have hkeyed : depot.Keyed := by decide +kernel
  have hunnamed : stranger.Unnamed := by decide +kernel
  have hspared := Reconciler.run_spares_unnamed (.generated 0) hkeyed depot_declared .empty
  obtain ⟨hloser, hwinner⟩ := hspared.unblamed .resource _ ledger_reported rfl ⟨3, stranger⟩
    (by decide +kernel) hunnamed
  exact ⟨hkeyed, depot_declared, hunnamed, _, ledger_reported, rfl, hloser, hwinner _ _ _ rfl⟩

end Shop

end Reconciliation
