import Reconciliation.Proofs.Provider.Order
import Reconciliation.Proofs.Resolution.Conservation

/-! # The order of entries says nothing

A pass puts its candidates in order before it looks at any of them, so all later stages see the same
list whatever order the snapshot had.
-/
namespace Reconciliation

structure Snapshot.Reorders (s t : Snapshot) : Prop where
  changeCount : s.changeCount = t.changeCount
  entries : s.entries.Perm t.entries

def Drains (drain : List Failure → List Failure) : Prop :=
  ∀ fs, (drain fs).Perm fs

namespace Pass

section Sorting

variable {es es' : List (Stored Record)} {runtime : Properties}

theorem sortPool_eq_of_perm (hp : es.Perm es') (hn : (es.map fun e => e.record.key).Nodup) :
    sortPool es = sortPool es' := by
  have hcmp : Std.TransCmp fun a b : Stored Record => a.record.compare b.record :=
    transCmp_view Record.compare Stored.record
  apply mergeSort_eq_of_perm hp
  intro a ha b hb hlevel
  exact List.inj_on_of_nodup_map hn ha hb (Record.key_eq_of_compare hlevel)

theorem admitted_eq_of_perm (hp : es.Perm es') (hn : (es.map fun e => e.record.key).Nodup) :
    admitted es runtime = admitted es' runtime :=
  sortPool_eq_of_perm (hp.filter _) ((List.filter_sublist.map _).nodup hn)

theorem pools_eq_of_perm (hp : es.Perm es') (hn : (es.map fun e => e.record.key).Nodup) :
    pools es runtime = pools es' runtime := by
  simp only [pools, admitted_eq_of_perm hp hn]

/-- What is rejected comes in the order of the entries; all other failures come in an order of their
own. -/
theorem allFailures_perm (hp : es.Perm es') (p : Pools) (f : Field) (vs : List Verdict) :
    (allFailures es p f vs).Perm (allFailures es' p f vs) := by
  have hr : (rejected es).Perm (rejected es') := hp.filterMap _
  simp only [allFailures, List.append_assoc]
  exact hr.append_right _

end Sorting

/-- Failures of one kind with keys of their own can be put in order in one way only. -/
theorem sortFailures_eq_of_perm {fs gs : List Failure} {kind : Kind} (hp : fs.Perm gs)
    (hn : (fs.map fun f => f.record.key).Nodup) (hk : ∀ f ∈ fs, f.record.kind = kind) :
    sortFailures fs = sortFailures gs := by
  have hcmp : Std.TransCmp fun a b : Failure => a.record.profile.compare b.record.profile :=
    transCmp_view Profile.compare fun f : Failure => f.record.profile
  apply mergeSort_eq_of_perm hp
  intro f hf g hg hlevel
  have hid : f.record.id = g.record.id := (Profile.level_of_compare hlevel).2.1
  have hkind : f.record.kind = g.record.kind := (hk f hf).trans (hk g hg).symm
  apply List.inj_on_of_nodup_map hn hf hg
  rw [Record.key, Record.key, hid, hkind]

theorem outcome_eq_of_perm {fs gs : List Failure} (hp : fs.Perm gs)
    (hn : (fs.map fun f => f.record.key).Nodup) (changeCount : Nat) (accepted : List Accepted)
    (defaultId : Option ProviderId) :
    outcome changeCount accepted defaultId fs = outcome changeCount accepted defaultId gs := by
  have hfailed : ∀ k : Kind, sortFailures (fs.filter fun f => f.record.kind == k) =
      sortFailures (gs.filter fun f => f.record.kind == k) := by
    intro k
    have hk : ∀ f ∈ fs.filter (fun f => f.record.kind == k), f.record.kind = k := by
      intro f hf
      exact beq_iff_eq.1 (List.mem_filter.1 hf).2
    exact sortFailures_eq_of_perm (hp.filter _) ((List.filter_sublist.map _).nodup hn) hk
  simp only [outcome, hfailed]

end Pass

namespace Reconciler

variable {r : Reconciler} {s t : Snapshot}

theorem Fits.of_reorders (h : r.Fits s) (hs : s.Reorders t) : r.Fits t := by
  constructor
  · exact (hs.entries.map _).nodup_iff.1 h.keyed
  · intro e he
    exact h.builtin_free e (hs.entries.mem_iff.2 he)

theorem candidates_perm (r : Reconciler) (hs : s.Reorders t) :
    (Pass.candidates r.builtin s).Perm (Pass.candidates r.builtin t) :=
  hs.entries.append_right _

theorem Fits.pools_eq (h : r.Fits s) (hs : s.Reorders t) (runtime : Properties) :
    Pass.pools (Pass.candidates r.builtin s) runtime =
      Pass.pools (Pass.candidates r.builtin t) runtime :=
  Pass.pools_eq_of_perm (candidates_perm r hs) h.candidates_nodup

theorem Fits.field_eq (h : r.Fits s) (hs : s.Reorders t) (runtime : Properties) :
    r.field s runtime = r.field t runtime := by
  rw [field, field, h.pools_eq hs]

theorem Fits.verdicts_eq (h : r.Fits s) (hs : s.Reorders t) (runtime : Properties) :
    r.verdicts s runtime = r.verdicts t runtime := by
  rw [verdicts, verdicts, h.field_eq hs]

theorem Fits.reported_perm (h : r.Fits s) (hs : s.Reorders t) (runtime : Properties) :
    (r.reported s runtime).Perm (r.reported t runtime) := by
  rw [reported, reported, h.pools_eq hs, h.field_eq hs, h.verdicts_eq hs]
  exact Pass.allFailures_perm (candidates_perm r hs) _ _ _

/-- A pass told by its stages. No failure stands in the way of another. -/
theorem Fits.runDraining_eq (h : r.Fits s) (drain : List Failure → List Failure)
    (runtime : Properties) : r.runDraining drain s runtime =
      Pass.outcome s.changeCount (r.accepted s runtime)
        (((r.field s runtime).effective.bind fun i => (r.field s runtime).applications[i]?).map
          fun a => a.record.profile.id) (drain (r.reported s runtime)) := by
  have hl : Pass.lastOfEachKey (r.reported s runtime) = r.reported s runtime :=
    Pass.lastOfEach_of_nodup (h.reported_nodup runtime)
  calc r.runDraining drain s runtime
      = Pass.outcome s.changeCount (r.accepted s runtime)
          (((r.field s runtime).effective.bind fun i => (r.field s runtime).applications[i]?).map
            fun a => a.record.profile.id)
          (drain (Pass.lastOfEachKey (r.reported s runtime))) := rfl
    _ = _ := by rw [hl]

/-- The outcome of a pass depends neither on the order in which the entries of the snapshot are
gone through nor on the order in which the failures are handed over. -/
theorem runDraining_order_irrelevant (r : Reconciler) (s t : Snapshot) (runtime : Properties)
    (drain drain' : List Failure → List Failure) (h : r.Fits s) (hs : s.Reorders t)
    (hd : Drains drain) (hd' : Drains drain') :
    r.runDraining drain s runtime = r.runDraining drain' t runtime := by
  have hp : (drain (r.reported s runtime)).Perm (drain' (r.reported t runtime)) :=
    (hd _).trans ((h.reported_perm hs runtime).trans (hd' _).symm)
  have hn : ((drain (r.reported s runtime)).map fun f => f.record.key).Nodup :=
    ((hd _).map _).nodup_iff.2 (h.reported_nodup runtime)
  rw [h.runDraining_eq, (h.of_reorders hs).runDraining_eq, accepted, accepted, h.field_eq hs,
    h.verdicts_eq hs, hs.changeCount]
  exact Pass.outcome_eq_of_perm hp hn _ _ _

end Reconciler

namespace Shop

def nameless (number : Int64) : Record :=
  .ofProperties .resource (.registered number) (.ofList [(Keys.name, .text "")]) none

def crowd : Snapshot := ⟨3, [⟨1, shop⟩, ⟨2, nameless 2⟩, ⟨3, nameless 3⟩]⟩

/-- The shop and two failures, taken from either end. -/
theorem crowd_reversed : reconciler.Fits crowd ∧
    reconciler.runDraining id crowd .empty =
      reconciler.runDraining List.reverse ⟨3, crowd.entries.reverse⟩ .empty := by
  have hfits : reconciler.Fits crowd := ⟨by decide +kernel, by decide +kernel⟩
  have hreorders : crowd.Reorders ⟨3, crowd.entries.reverse⟩ :=
    ⟨rfl, (List.reverse_perm crowd.entries).symm⟩
  exact ⟨hfits, Reconciler.runDraining_order_irrelevant reconciler crowd _ .empty id List.reverse
    hfits hreorders List.Perm.refl List.reverse_perm⟩

end Shop

end Reconciliation
