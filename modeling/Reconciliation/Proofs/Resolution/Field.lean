import Mathlib.Data.List.Pairwise
import Mathlib.Data.List.Sort
import Reconciliation.Proofs.Provider.Order
import Reconciliation.Proofs.Resolution.Conservation

/-! # What is left in the field

After the three rules no two applications share a base path, one of them at most is a default
application, and content stands in the order of providers, each entry under a key of its own.
-/
namespace Reconciliation

namespace Pass

/-- What two applications must not have in common after a contest among applications. -/
def Apart (c : Contest Application) (a b : Stored Application) : Prop :=
  ∀ k, c.stake a.record = some k → c.stake b.record ≠ some k

instance (c : Contest Application) : Std.Symm (Apart c) :=
  ⟨fun _ _ h k hk hk' => h k hk' hk⟩

theorem eq_of_apart {c : Contest Application} {as : List (Stored Application)}
    (h : as.Pairwise (Apart c)) {a b : Stored Application} (ha : a ∈ as) (hb : b ∈ as) {k : String}
    (hk : c.stake a.record = some k) (hk' : c.stake b.record = some k) : a = b := by
  by_contra hne
  exact h.forall ha hb hne k hk hk'

theorem applications_apart {c : Contest Application} (hc : ∀ w x, c.spares w x = false)
    {pool survivors : List (Stored Record)}
    (hs : survivors.Sublist (((Record.amongApplications c).through Stored.record).survivors pool)) :
    (Field.ofPool survivors).applications.Pairwise (Apart c) := by
  have hspare : ∀ w x,
      ((Record.amongApplications c).through Stored.record).spares w x = false := by
    intro w x
    simp only [Contest.through, Record.amongApplications]
    split
    · exact hc _ _
    · rfl
  have hp := (Contest.survivors_pairwise hspare pool).sublist hs
  refine hp.filterMap _ ?_
  intro e e' hee a ha a' ha' k hk
  obtain ⟨b, hb, rfl⟩ := Option.map_eq_some_iff.1 ha
  obtain ⟨b', hb', rfl⟩ := Option.map_eq_some_iff.1 ha'
  have hstake : ∀ (e : Stored Record) b, e.record.application? = some b →
      ((Record.amongApplications c).through Stored.record).stake e = c.stake b := by
    intro e b hb
    simp [Contest.through, Record.amongApplications, hb]
  rw [← hstake e' b' hb']
  exact hee k ((hstake e b hb).trans hk)

theorem bases_apart (es : List (Stored Record)) (runtime : Properties) :
    (Field.ofPool (pools es runtime).afterDefault).applications.Pairwise (Apart pathContest) :=
  applications_apart (fun _ _ => rfl) ((afterRule_sublist _ _).trans (afterRule_sublist _ _))

theorem defaults_apart (es : List (Stored Record)) (runtime : Properties) :
    (Field.ofPool (pools es runtime).afterDefault).applications.Pairwise (Apart defaultContest) :=
  applications_apart (fun _ _ => rfl) (List.Sublist.refl _)

theorem bases_nodup (es : List (Stored Record)) (runtime : Properties) :
    ((Field.ofPool (pools es runtime).afterDefault).applications.map
      fun a => a.record.base).Nodup := by
  rw [List.Nodup, List.pairwise_map]
  exact (bases_apart es runtime).imp fun h he => h _ rfl (congrArg some he.symm)

theorem poolContent_afterDefault (es : List (Stored Record)) (runtime : Properties) :
    poolContent (pools es runtime).afterDefault = poolContent (pools es runtime).afterName := by
  have hinj : Function.Injective Stored.ofContent := by
    rintro ⟨_, _⟩ ⟨_, _⟩ h
    simpa [Stored.ofContent] using h
  apply List.map_injective_iff.2 hinj
  rw [poolContent_map, poolContent_map]
  apply Contest.filter_survivors
  intro e he
  cases hr : e.record.application? with
  | none => simp [storedContest, Contest.through, Record.contest, Record.amongApplications, hr]
  | some a => simp [hr] at he

theorem mem_content {pool : List (Stored Record)} {c : Stored Content} :
    c ∈ (Field.ofPool pool).content ↔ Stored.ofContent c ∈ pool := by
  rw [(content_perm_poolContent pool).mem_iff, poolContent, List.mem_filterMap]
  constructor
  · rintro ⟨⟨n, r⟩, he, hc⟩
    cases r with
    | application a => cases hc
    | content c' =>
      obtain rfl := Option.some.inj hc
      exact he
  · exact fun hc => ⟨_, hc, rfl⟩

theorem mem_applications {pool : List (Stored Record)} {a : Stored Application} :
    a ∈ (Field.ofPool pool).applications ↔ Stored.ofApplication a ∈ pool := by
  constructor
  · intro ha
    obtain ⟨⟨n, r⟩, he, ha⟩ := List.mem_filterMap.1 ha
    cases r with
    | application a' =>
      obtain rfl := Option.some.inj ha
      exact he
    | content c => cases ha
  · exact fun ha => List.mem_filterMap.2 ⟨_, ha, rfl⟩

/-- Entries of content stand in the order of providers, none of them twice. -/
def Precedes (c d : Stored Content) : Prop :=
  (Record.content c.record).compare (Record.content d.record) = .lt

theorem isLE_total (a b : Stored Record) :
    ((a.record.compare b.record).isLE || (b.record.compare a.record).isLE) = true := by
  have hs : a.record.compare b.record = (b.record.compare a.record).swap :=
    Std.OrientedCmp.eq_swap
  rw [hs]
  cases b.record.compare a.record <;> rfl

theorem isLE_trans (a b c : Stored Record) (hab : (a.record.compare b.record).isLE = true)
    (hbc : (b.record.compare c.record).isLE = true) : (a.record.compare c.record).isLE = true :=
  Std.TransCmp.isLE_trans hab hbc

theorem sortPool_pairwise (es : List (Stored Record)) :
    (sortPool es).Pairwise fun a b => (a.record.compare b.record).isLE = true :=
  List.pairwise_mergeSort isLE_trans isLE_total es

/-- A pool without two entries under one key can be sorted by insertion as well. -/
theorem sortPool_eq_insertionSort {es : List (Stored Record)}
    (hn : (es.map fun e => e.record.key).Nodup) : sortPool es =
      es.insertionSort fun a b => (a.record.compare b.record).isLE = true := by
  have htotal : Std.Total fun a b : Stored Record => (a.record.compare b.record).isLE = true :=
    ⟨fun a b => Bool.or_eq_true_iff.1 (isLE_total a b)⟩
  have htrans : IsTrans (Stored Record) fun a b => (a.record.compare b.record).isLE = true :=
    ⟨isLE_trans⟩
  refine List.Perm.eq_of_pairwise ?_ (sortPool_pairwise es) (List.pairwise_insertionSort _ es) ?_
  · intro a b ha hb hab hba
    exact List.inj_on_of_nodup_map hn (List.mem_mergeSort.1 ha) ((List.mem_insertionSort _).1 hb)
      (Record.key_eq_of_compare (Std.OrientedCmp.isLE_antisymm hab hba))
  · exact (List.mergeSort_perm _ _).trans (List.perm_insertionSort _ _).symm

theorem admitted_pairwise (es : List (Stored Record)) (runtime : Properties) :
    (admitted es runtime).Pairwise fun a b => (a.record.compare b.record).isLE = true :=
  sortPool_pairwise _

/-- Content has keys of its own wherever the content among the candidates has. -/
theorem poolContent_keys_nodup (es : List (Stored Record)) (runtime : Properties)
    (h : ((poolContent es).map fun c => (Record.content c.record).key).Nodup) :
    ((poolContent (pools es runtime).afterDefault).map
      fun c => (Record.content c.record).key).Nodup := by
  have hadmitted : (poolContent (admitted es runtime)).Perm (poolContent (es.filter fun e =>
      e.record.fault.isNone && e.record.profile.suits runtime)) :=
    (List.mergeSort_perm _ _).filterMap _
  have hall : (poolContent (es.filter fun e =>
      e.record.fault.isNone && e.record.profile.suits runtime)).Sublist (poolContent es) :=
    List.filter_sublist.filterMap _
  have hafter : (poolContent (pools es runtime).afterDefault).Sublist
      (poolContent (admitted es runtime)) :=
    (afterDefault_sublist_admitted es runtime).filterMap _
  exact (hafter.map _).nodup ((hadmitted.map _).nodup_iff.2 ((hall.map _).nodup h))

theorem poolContent_precedes (es : List (Stored Record)) (runtime : Properties)
    (h : ((poolContent es).map fun c => (Record.content c.record).key).Nodup) :
    (poolContent (pools es runtime).afterDefault).Pairwise Precedes := by
  have hle : (poolContent (pools es runtime).afterDefault).Pairwise fun c d =>
      ((Record.content c.record).compare (Record.content d.record)).isLE = true := by
    refine ((admitted_pairwise es runtime).sublist
      (afterDefault_sublist_admitted es runtime)).filterMap _ ?_
    rintro ⟨n, r⟩ ⟨n', r'⟩ hee c hc d hd
    cases r <;> cases hc
    cases r' <;> cases hd
    exact hee
  have hne := poolContent_keys_nodup es runtime h
  rw [List.Nodup, List.pairwise_map] at hne
  refine (hle.and hne).imp ?_
  rintro c d ⟨hcd, hkey⟩
  unfold Precedes
  cases hcmp : (Record.content c.record).compare (Record.content d.record) with
  | lt => rfl
  | eq => exact absurd (Record.key_eq_of_compare hcmp) hkey
  | gt => simp [hcmp] at hcd

end Pass

namespace Reconciler

variable {r : Reconciler} {s : Snapshot}

theorem candidates_content_nodup (h : s.Keyed) :
    ((Pass.poolContent (Pass.candidates r.builtin s)).map
      fun c => (Record.content c.record).key).Nodup := by
  have hbuiltin : Pass.poolContent (Pass.candidates r.builtin s) = Pass.poolContent s.entries := by
    simp [Pass.candidates, Pass.poolContent, Record.content?]
  have hmap : (Pass.poolContent s.entries).map (fun c => (Record.content c.record).key) =
      ((Pass.poolContent s.entries).map Stored.ofContent).map fun e => e.record.key := by
    rw [List.map_map]
    rfl
  rw [hbuiltin, hmap, Pass.poolContent_map]
  exact (List.filter_sublist.map _).nodup h

theorem field_distinct (h : s.Keyed) (runtime : Properties) : (r.field s runtime).Distinct := by
  have hn := Pass.poolContent_keys_nodup (Pass.candidates r.builtin s) runtime
    (candidates_content_nodup h)
  exact ((Pass.content_perm_poolContent _).map _).nodup_iff.2 hn

theorem field_content_precedes (h : s.Keyed) (runtime : Properties) (kind : ContentKind) :
    ((r.field s runtime).content.filter fun c => c.record.kind == kind).Pairwise Pass.Precedes := by
  have hp := Pass.poolContent_precedes (Pass.candidates r.builtin s) runtime
    (candidates_content_nodup h)
  have hfield : (r.field s runtime).content =
      ((Pass.poolContent (Pass.pools (Pass.candidates r.builtin s) runtime).afterDefault).filter
        fun c => c.record.kind == .resource) ++
      (Pass.poolContent (Pass.pools (Pass.candidates r.builtin s) runtime).afterDefault).filter
        fun c => c.record.kind == .extension := rfl
  rw [hfield, List.filter_append, List.filter_filter, List.filter_filter]
  cases kind with
  | resource =>
    have hnone : ∀ c : Stored Content,
        (c.record.kind == .resource && c.record.kind == .extension) = false := by
      intro c
      cases c.record.kind <;> rfl
    simp only [hnone, List.filter_false, List.append_nil, Bool.and_self]
    exact hp.filter _
  | extension =>
    have hnone : ∀ c : Stored Content,
        (c.record.kind == .extension && c.record.kind == .resource) = false := by
      intro c
      cases c.record.kind <;> rfl
    simp only [hnone, List.filter_false, List.nil_append, Bool.and_self]
    exact hp.filter _

theorem accepted_bases_nodup (r : Reconciler) (s : Snapshot) (runtime : Properties) :
    ((r.run s runtime).applications.map Accepted.base).Nodup := by
  have hperm := (applications_perm r s runtime).map Accepted.base
  have haccepted : (r.accepted s runtime).map Accepted.base =
      ((r.verdicts s runtime).filter fun v => v.accepted?.isSome).map
        fun v => v.application.record.base := by
    apply map_filterMap_eq_map_filter
    intro v _ a ha
    rw [Accepted.base, Pass.Verdict.application_of_accepted? ha]
  have hall := ((r.field s runtime).verdicts_applications runtime).map
    fun a : Stored Application => a.record.base
  rw [List.map_map] at hall
  rw [hperm.nodup_iff, haccepted]
  refine (List.filter_sublist.map _).nodup (hall.nodup_iff.2 ?_)
  exact Pass.bases_nodup _ runtime

end Reconciler

end Reconciliation
