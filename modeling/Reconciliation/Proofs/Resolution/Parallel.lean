import Reconciliation.Proofs.Resolution.Conflict
import Reconciliation.Proofs.Resolution.Counterpart

/-! # Passes under other tokens

Two passes over the same providers under other tokens come to the same outcome, as long as the
tokens decide no rule and do not tell who lets failed content go last.
-/
namespace Reconciliation

/-- Lists whose entries belong together pairwise still do when both are sorted by something that
entries that belong together share. -/
theorem forall₂_mergeSort {α β γ : Type} {R : α → β → Prop} {xs : List α} {ys : List β}
    (h : List.Forall₂ R xs ys) (le : γ → γ → Bool) {f : α → γ} {g : β → γ}
    (hfg : ∀ x y, R x y → g y = f x) :
    List.Forall₂ R (xs.mergeSort fun x x' => le (f x) (f x'))
      (ys.mergeSort fun y y' => le (g y) (g y')) := by
  obtain ⟨ps, rfl, rfl, hps⟩ : ∃ ps : List (α × β), xs = ps.map Prod.fst ∧ ys = ps.map Prod.snd ∧
      ∀ p ∈ ps, R p.1 p.2 := by
    induction h with
    | nil => exact ⟨[], rfl, rfl, by simp⟩
    | @cons x y xs ys hxy _ ih =>
      obtain ⟨ps, rfl, rfl, hps⟩ := ih
      exact ⟨(x, y) :: ps, rfl, rfl, List.forall_mem_cons.2 ⟨hxy, hps⟩⟩
  have hleft := List.map_mergeSort (l := ps) (f := Prod.fst)
    (r := fun p q => le (f p.1) (f q.1)) (s := fun x x' => le (f x) (f x')) fun _ _ _ _ => rfl
  have hright := List.map_mergeSort (l := ps) (f := Prod.snd)
    (r := fun p q => le (f p.1) (f q.1)) (s := fun y y' => le (g y) (g y')) fun p hp q hq => by
      rw [hfg _ _ (hps p hp), hfg _ _ (hps q hq)]
  rw [← hleft, ← hright, List.forall₂_map_left_iff, List.forall₂_map_right_iff,
    List.forall₂_same]
  exact fun p hp => hps p (List.mem_mergeSort.1 hp)

theorem exists_of_forall₂ {α β : Type} {R : α → β → Prop} {xs : List α} {ys : List β}
    (h : List.Forall₂ R xs ys) : ∀ x ∈ xs, ∃ y ∈ ys, R x y := by
  induction h with
  | nil => simp
  | cons hxy _ ih =>
    refine List.forall_mem_cons.2 ⟨⟨_, List.mem_cons_self, hxy⟩, fun x hx => ?_⟩
    obtain ⟨y, hy, hxy⟩ := ih x hx
    exact ⟨y, List.mem_cons_of_mem _ hy, hxy⟩

theorem FailuresMirror.ofKind {ρ : Renaming} {fs gs : List Failure} (h : FailuresMirror ρ fs gs)
    (kind : Kind) : FailuresMirror ρ (fs.filter fun f => f.record.kind == kind)
      (gs.filter fun f => f.record.kind == kind) := by
  have hleft : (gs.filter fun f => f.record.kind == kind).map Failure.gist =
      (gs.map Failure.gist).filter fun g => g.1.kind == kind := by
    rw [List.filter_map]
    rfl
  have hright : (fs.filter fun f => f.record.kind == kind).map ρ.gist =
      (fs.map ρ.gist).filter fun g => g.1.kind == kind := by
    rw [List.filter_map]
    congr 1
    refine List.filter_congr fun f _ => ?_
    simp only [Function.comp, Renaming.gist, Renaming.kind_onRecord]
  rw [FailuresMirror, hleft, hright]
  exact h.filter _

structure Resolution.Mirrors (ρ : Renaming) (r s : Resolution) : Prop where
  changeCount : s.changeCount = r.changeCount
  defaultApplication : s.defaultApplication = r.defaultApplication.map ρ.onId
  applications : List.Forall₂ (Accepted.Mirrors ρ) r.applications s.applications
  failures : ∀ kind, FailuresMirror ρ (r.failures kind) (s.failures kind)

theorem Accepted.Mirrors.id_eq {ρ : Renaming} {a b : Accepted} (h : Accepted.Mirrors ρ a b) :
    b.id = ρ.onId a.id :=
  congrArg (fun x : Stored Application => x.record.profile.id) h.application

theorem Accepted.Mirrors.base_eq {ρ : Renaming} {a b : Accepted} (h : Accepted.Mirrors ρ a b) :
    b.base = a.base := by
  rw [Accepted.base, h.application]
  rfl

namespace Reconciler

theorem Fits.renamed {ρ : Renaming} {r r' : Reconciler} {s s' : Snapshot} (h : r.Fits s)
    (hbuiltin : r'.builtin = ρ.onApplication r.builtin) (hsnapshot : s' = ρ.onSnapshot s) :
    r'.Fits s' := by
  constructor
  · have hkeys : (s'.entries.map fun e => e.record.key) =
        (s.entries.map fun e => e.record.key).map ρ.onKey := by
      simp [hsnapshot]
    rw [Snapshot.Keyed, hkeys]
    exact h.keyed.map ρ.onKey_injective
  · intro e he
    rw [hsnapshot] at he
    obtain ⟨d, hd, rfl⟩ := List.mem_map.1 he
    rw [hbuiltin]
    exact fun hkey => h.builtin_free d hd (ρ.key_onRecord_inj.1 hkey)

structure Parallel (ρ : Renaming) (r r' : Reconciler) (s s' : Snapshot) (runtime : Properties) :
    Prop where
  fits : r.Fits s
  builtin : r'.builtin = ρ.onApplication r.builtin
  snapshot : s' = ρ.onSnapshot s
  names : Pass.KeepsNames ρ (Pass.sound (Pass.candidates r.builtin s) runtime)
  paths : Pass.KeepsWinners ρ .path (r.pools s runtime).admitted
  defaults : Pass.KeepsWinners ρ .default (r.pools s runtime).afterName
  reasons : (r.field s runtime).KeepsReasons ρ runtime

namespace Parallel

variable {ρ : Renaming} {r r' : Reconciler} {s s' : Snapshot} {runtime : Properties}

theorem candidates (h : Parallel ρ r r' s s' runtime) :
    Pass.candidates r'.builtin s' = (Pass.candidates r.builtin s).map ρ.entry := by
  rw [Pass.candidates, Pass.candidates, h.snapshot, h.builtin, List.map_append]
  rfl

theorem fits' (h : Parallel ρ r r' s s' runtime) : r'.Fits s' :=
  h.fits.renamed h.builtin h.snapshot

theorem admitted (h : Parallel ρ r r' s s' runtime) :
    Pass.Mirrors ρ (r.pools s runtime).admitted (r'.pools s' runtime).admitted := by
  rw [pools, pools, h.candidates]
  exact Pass.admitted_mirrors h.fits.candidates_nodup

theorem followsPaths (h : Parallel ρ r r' s s' runtime) : (Pass.storedContest .path).Follows ρ.entry
    (r.pools s runtime).admitted (r'.pools s' runtime).admitted :=
  h.admitted.follows_of_keepsWinners nofun h.paths

theorem afterPath (h : Parallel ρ r r' s s' runtime) :
    Pass.Mirrors ρ (r.pools s runtime).afterPath (r'.pools s' runtime).afterPath :=
  h.admitted.afterRule h.followsPaths

theorem followsNames (h : Parallel ρ r r' s s' runtime) : (Pass.storedContest .name).Follows ρ.entry
    (r.pools s runtime).afterPath (r'.pools s' runtime).afterPath := by
  have hsub : (r.pools s runtime).afterPath ⊆
      Pass.sound (Pass.candidates r.builtin s) runtime := fun _ he =>
    List.mem_mergeSort.1 ((Pass.afterRule_sublist .path _).subset he)
  exact h.afterPath.follows_names (h.names.subset hsub)

theorem afterName (h : Parallel ρ r r' s s' runtime) :
    Pass.Mirrors ρ (r.pools s runtime).afterName (r'.pools s' runtime).afterName :=
  h.afterPath.afterRule h.followsNames

theorem followsDefaults (h : Parallel ρ r r' s s' runtime) :
    (Pass.storedContest .default).Follows ρ.entry (r.pools s runtime).afterName
      (r'.pools s' runtime).afterName :=
  h.afterName.follows_of_keepsWinners nofun h.defaults

theorem field (h : Parallel ρ r r' s s' runtime) :
    Pass.Field.Mirrors ρ (r.field s runtime) (r'.field s' runtime) :=
  Pass.ofPool_mirrors (h.afterName.afterRule h.followsDefaults) (r.field_contested s runtime)
    (r'.field_contested s' runtime)

theorem reported (h : Parallel ρ r r' s s' runtime) :
    FailuresMirror ρ (r.reported s runtime) (r'.reported s' runtime) := by
  have hrejected : FailuresMirror ρ (Pass.rejected (Pass.candidates r.builtin s))
      (Pass.rejected (Pass.candidates r'.builtin s')) := by
    rw [h.candidates]
    exact Pass.rejected_mirror ρ _
  exact (((hrejected.append (Pass.Mirrors.lostTo h.followsPaths)).append
    (Pass.Mirrors.lostTo h.followsNames)).append (Pass.Mirrors.lostTo h.followsDefaults)).append
    (h.field.failures h.reasons)

/-- The deployed applications stand in the order of their paths, so they are the same one by one. -/
theorem applications (h : Parallel ρ r r' s s' runtime) : List.Forall₂ (Accepted.Mirrors ρ)
    (r.run s runtime).applications (r'.run s' runtime).applications := by
  obtain ⟨ws, hws, hvs⟩ := h.field.verdicts runtime
  have hboth : List.Forall₂ (Accepted.Mirrors ρ) (r.accepted s runtime)
      (ws.filterMap Pass.Verdict.accepted?) := List.rel_filterMap (fun _ _ hv => hv.accepted?) hvs
  have hsorted := forall₂_mergeSort hboth (fun b b' => decide (b ≤ b')) fun a b hab => hab.base_eq
  have haccepted : (ws.filterMap Pass.Verdict.accepted?).Perm (r'.accepted s' runtime) :=
    hws.filterMap _
  have hperm : ((ws.filterMap Pass.Verdict.accepted?).mergeSort
      fun a b => decide (a.base ≤ b.base)).Perm (r'.run s' runtime).applications :=
    (List.mergeSort_perm _ _).trans (haccepted.trans (applications_perm r' s' runtime).symm)
  have hbases : ((ws.filterMap Pass.Verdict.accepted?).map Accepted.base).Nodup := by
    have hrun := (r'.applications_lt s' runtime).imp String.ne_of_lt
    rw [← List.pairwise_map (f := Accepted.base) (R := fun b b' => b ≠ b')] at hrun
    exact ((((List.mergeSort_perm _ _).symm.trans hperm).map _).nodup_iff).2 hrun
  have heq := hperm.eq_of_pairwise (fun a b _ _ hab hba => absurd hba (String.lt_asymm hab))
    (mergeSort_base_lt hbases) (r'.applications_lt s' runtime)
  rwa [heq] at hsorted

theorem default (h : Parallel ρ r r' s s' runtime) : (r'.run s' runtime).defaultApplication =
    (r.run s runtime).defaultApplication.map ρ.onId := by
  ext id
  rw [defaultApplication_eq_some_iff h.fits', Option.map_eq_some_iff]
  simp only [defaultApplication_eq_some_iff h.fits]
  have hacts {a b : Accepted} (ha : a ∈ (r.run s runtime).applications)
      (hab : Accepted.Mirrors ρ a b) : (r'.field s' runtime).ActsAsDefault b.application ↔
        (r.field s runtime).ActsAsDefault a.application := by
    rw [hab.application]
    exact h.field.actsAsDefault_iff (application_mem_field ha)
  constructor
  · rintro ⟨b, hb, rfl, hdefault⟩
    obtain ⟨a, ha, hab⟩ := exists_of_forall₂ h.applications.flip b hb
    exact ⟨a.id, ⟨a, ha, rfl, (hacts ha hab).1 hdefault⟩, hab.id_eq.symm⟩
  · rintro ⟨_, ⟨a, ha, rfl, hdefault⟩, rfl⟩
    obtain ⟨b, hb, hab⟩ := exists_of_forall₂ h.applications a ha
    exact ⟨b, hb, hab.id_eq, (hacts ha hab).2 hdefault⟩

theorem run (h : Parallel ρ r r' s s' runtime) :
    Resolution.Mirrors ρ (r.run s runtime) (r'.run s' runtime) := by
  have hcount : s'.changeCount = s.changeCount := by
    rw [h.snapshot]
    rfl
  refine ⟨hcount, h.default, h.applications, fun kind => ?_⟩
  have hleft := (h.fits'.failures_perm runtime kind).map Failure.gist
  have hright := (h.fits.failures_perm runtime kind).map ρ.gist
  exact hleft.trans ((h.reported.ofKind kind).trans hright.symm)

end Parallel

end Reconciler

end Reconciliation
