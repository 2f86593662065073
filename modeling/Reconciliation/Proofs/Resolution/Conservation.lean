import Reconciliation.Proofs.Resolution.Contest
import Reconciliation.Proofs.Resolution.Verdict

/-! # Every provider is accounted for

No stage of a pass loses anything: put together, the candidates are the failures, the accepted
applications, the content that somebody keeps, and what is meant for another runtime.
-/
namespace Reconciliation

def Stored.ofApplication (a : Stored Application) : Stored Record :=
  ⟨a.revision, .application a.record⟩

def Stored.ofContent (c : Stored Content) : Stored Record :=
  ⟨c.revision, .content c.record⟩

namespace Pass

def unsuited (es : List (Stored Record)) (runtime : Properties) : List (Stored Record) :=
  es.filter fun e => e.record.fault.isNone && !e.record.profile.suits runtime

theorem rejected_records (es : List (Stored Record)) : (rejected es).map Failure.record =
    (es.filter fun e => !e.record.fault.isNone).map Stored.record := by
  rw [rejected, map_filterMap_eq_map_filter (h := Stored.record)]
  · congr 2
    funext e
    cases e.record.fault <;> rfl
  · intro e _ f hf
    obtain ⟨_, _, rfl⟩ := Option.map_eq_some_iff.1 hf
    rfl

theorem candidates_split (es : List (Stored Record)) (runtime : Properties) :
    (es.map Stored.record).Perm ((rejected es).map Failure.record ++
      ((unsuited es runtime).map Stored.record ++ (admitted es runtime).map Stored.record)) := by
  have hfault := List.filter_append_perm (fun e : Stored Record => !e.record.fault.isNone) es
  have hsuits := List.filter_append_perm
    (fun e : Stored Record => !e.record.profile.suits runtime)
    (es.filter fun e => e.record.fault.isNone)
  simp only [List.filter_filter, Bool.not_not] at hfault hsuits
  have hun : unsuited es runtime = es.filter fun e =>
      !e.record.profile.suits runtime && e.record.fault.isNone := by
    unfold unsuited
    congr 1
    funext e
    exact Bool.and_comm _ _
  have had : (admitted es runtime).Perm
      (es.filter fun e => e.record.profile.suits runtime && e.record.fault.isNone) := by
    refine (List.mergeSort_perm _ _).trans (List.Perm.of_eq ?_)
    congr 1
    funext e
    exact Bool.and_comm _ _
  rw [rejected_records, hun, ← List.map_append, ← List.map_append]
  refine List.Perm.map _ (hfault.symm.trans (List.Perm.append_left _ ?_))
  exact hsuits.symm.trans (List.Perm.append_left _ had.symm)

theorem lostTo_records (rule : Rule) (pool : List (Stored Record)) :
    (lostTo rule pool).map Failure.record =
      (((storedContest rule).losses pool).map Prod.fst).map Stored.record := by
  simp [lostTo]

theorem afterRule_split (rule : Rule) (pool : List (Stored Record)) :
    (pool.map Stored.record).Perm ((lostTo rule pool).map Failure.record ++
      (afterRule rule pool).map Stored.record) := by
  rw [lostTo_records, ← List.map_append]
  exact ((storedContest rule).survivors_append_losers_perm pool).symm.trans
    List.perm_append_comm |>.map _

theorem applications_ofContent (pool : List (Stored Record)) :
    (Field.ofPool pool).applications.map Stored.ofApplication =
      pool.filter fun e => e.record.application?.isSome := by
  rw [Field.ofPool, map_filterMap_eq_map_filter (h := id), List.map_id]
  · congr 1
    funext e
    rw [Option.isSome_map]
  · rintro ⟨_, r⟩ _ a ha
    cases r <;> cases ha
    rfl

/-- Content in the order of the pool, before extensions are put behind resources. -/
def poolContent (pool : List (Stored Record)) : List (Stored Content) :=
  pool.filterMap fun e => e.record.content?.map fun c => Stored.mk e.revision c

theorem poolContent_map (pool : List (Stored Record)) :
    (poolContent pool).map Stored.ofContent =
      pool.filter fun e => !e.record.application?.isSome := by
  rw [poolContent, map_filterMap_eq_map_filter (h := id), List.map_id]
  · congr 1
    funext ⟨_, r⟩
    cases r <;> rfl
  · rintro ⟨_, r⟩ _ c hc
    cases r <;> cases hc
    rfl

theorem resources_append_extensions_perm (cs : List (Stored Content)) :
    (cs.filter (fun c => c.record.kind == .resource) ++
      cs.filter fun c => c.record.kind == .extension).Perm cs := by
  have hk : (fun c : Stored Content => c.record.kind == .extension) =
      fun c => !(c.record.kind == .resource) := by
    funext c
    cases c.record.kind <;> rfl
  rw [hk]
  exact List.filter_append_perm _ _

theorem content_perm_poolContent (pool : List (Stored Record)) :
    (Field.ofPool pool).content.Perm (poolContent pool) :=
  resources_append_extensions_perm (poolContent pool)

theorem ofPool_split (pool : List (Stored Record)) :
    pool.Perm ((Field.ofPool pool).applications.map Stored.ofApplication ++
      (Field.ofPool pool).content.map Stored.ofContent) := by
  have hc := (content_perm_poolContent pool).map Stored.ofContent
  rw [poolContent_map] at hc
  rw [applications_ofContent]
  exact ((List.Perm.append_left _ hc).trans (List.filter_append_perm _ _)).symm

namespace Field

theorem otherVerdicts_map_application (f : Field) (runtime : Properties) :
    (f.otherVerdicts runtime).map Verdict.application =
      (f.applications.zipIdx.filter fun p => !(f.effective == some p.2)).map Prod.fst := by
  rw [otherVerdicts, map_filterMap_eq_map_filter (h := Prod.fst)]
  · congr 2
    funext p
    cases h : f.effective == some p.2 <;> simp [h]
  · rintro ⟨a, i⟩ _ v hv
    cases h : f.effective == some i <;> simp only [h] at hv <;> cases hv
    rfl

theorem zipIdx_filter_eq {α : Type} (xs : List α) (n i : Nat) :
    ((xs.zipIdx n).filter fun p => some (n + i) == some p.2).map Prod.fst = xs[i]?.toList := by
  induction xs generalizing n i with
  | nil => rfl
  | cons x xs ih =>
    cases i with
    | zero =>
      have hrest : ∀ y k, (y, k) ∈ xs.zipIdx (n + 1) → ¬ n = k := by
        intro y k hk
        have := (List.mem_zipIdx hk).1
        omega
      simpa using hrest
    | succ k =>
      have hne : ¬ n + (k + 1) = n := by omega
      have h := ih (n + 1) k
      rw [show n + 1 + k = n + (k + 1) by omega] at h
      simpa [hne] using h

theorem verdicts_applications (f : Field) (runtime : Properties) :
    ((f.verdicts runtime).map Verdict.application).Perm f.applications := by
  have hall : f.applications.zipIdx.map Prod.fst = f.applications := List.zipIdx_map_fst 0 _
  unfold verdicts
  cases he : f.effective with
  | none =>
    simp only [otherVerdicts_map_application, he]
    simp [hall]
  | some i =>
    have hi : ((f.applications[i]?.map fun a => judge runtime a
        (f.defaultMembers i (f.otherVerdicts runtime))).toList).map Verdict.application =
          (f.applications.zipIdx.filter fun p => f.effective == some p.2).map Prod.fst := by
      have h := zipIdx_filter_eq f.applications 0 i
      rw [Nat.zero_add] at h
      rw [he, h]
      cases f.applications[i]? <;> rfl
    rw [List.map_append, hi, otherVerdicts_map_application, ← List.map_append]
    have hp := (List.filter_append_perm (fun p : Stored Application × Nat =>
      f.effective == some p.2) f.applications.zipIdx).map Prod.fst
    rw [hall] at hp
    exact (List.perm_append_comm.map _).trans hp

end Field

namespace Verdict

theorem application_of_accepted? {v : Verdict} {a : Accepted} (h : v.accepted? = some a) :
    a.application = v.application :=
  (accepted?_eq_some h).2.1

theorem accepted?_isSome (v : Verdict) : v.accepted?.isSome = !v.outcome.application.isSome := by
  unfold accepted?
  cases v.outcome.application <;> rfl

end Verdict

theorem verdicts_split (vs : List Verdict) :
    (vs.map fun v => Record.application v.application.record).Perm
      ((vs.filterMap Verdict.failure?).map Failure.record ++
        (vs.filterMap Verdict.accepted?).map fun a => Record.application a.application.record) := by
  rw [map_filterMap_eq_map_filter (f := Verdict.accepted?)
      (h := fun v => Record.application v.application.record),
    map_filterMap_eq_map_filter (f := Verdict.failure?)
      (h := fun v => Record.application v.application.record), ← List.map_append]
  · refine List.Perm.map _ ?_
    simp only [Verdict.accepted?_isSome, Verdict.failure?, Option.isSome_map]
    exact (List.filter_append_perm _ _).symm
  · intro v _ f hf
    obtain ⟨_, _, rfl⟩ := Option.map_eq_some_iff.1 hf
    rfl
  · intro v _ a ha
    rw [Verdict.application_of_accepted? ha]

namespace Verdict

theorem kept_or_detached {v : Verdict} {c : Stored Content} (h : c ∈ v.members) :
    c ∈ v.kept ∨ ∃ cause, (c, cause) ∈ v.detached := by
  obtain ⟨p, hp⟩ := List.mem_iff_getElem?.1 h
  cases hr : v.outcome.isRemoved p with
  | true =>
    right
    obtain ⟨⟨i, sel⟩, hi, rfl⟩ := List.mem_map.1 (Outcome.isRemoved_iff.1 hr)
    refine ⟨.unsatisfiedIn sel v.application.record.profile.name, ?_⟩
    have hb : (c, Cause.unsatisfiedIn sel v.application.record.profile.name) ∈
        v.outcome.removed.filterMap fun r => v.members[r.1]?.map fun c =>
          (c, Cause.unsatisfiedIn r.2 v.application.record.profile.name) :=
      List.mem_filterMap.2 ⟨(i, sel), hi, by simp [hp]⟩
    unfold detached
    dsimp only
    split
    · exact List.mem_append_left _ hb
    · exact hb
  | false =>
    have hrem : c ∈ v.remaining := by
      rw [remaining_eq]
      exact List.mem_map.2 ⟨(c, p), mem_staying.2 ⟨hp, hr⟩, rfl⟩
    cases ha : v.outcome.application with
    | none =>
      left
      simpa [kept, ha] using hrem
    | some sel =>
      right
      refine ⟨.applicationUnavailable c.record.kind v.application.record.profile.name, ?_⟩
      simp only [detached, ha, Option.isSome_some, if_true]
      exact List.mem_append_right _ (List.mem_map.2 ⟨c, hrem, rfl⟩)

theorem keeps_iff {v : Verdict} {k : Key} :
    v.keeps k = true ↔ ∃ c ∈ v.kept, (Record.content c.record).key = k := by
  simp [keeps]

theorem content_perm_kept {v : Verdict} {a : Accepted} (h : v.accepted? = some a) :
    a.content.Perm v.kept := by
  obtain ⟨hnone, -, hr, he⟩ := accepted?_eq_some h
  have hk : v.kept = v.remaining := by simp [kept, hnone]
  rw [Accepted.content, hr, he, hk]
  exact resources_append_extensions_perm _

theorem exists_accepted_of_kept {v : Verdict} {c : Stored Content} (h : c ∈ v.kept) :
    ∃ a, v.accepted? = some a := by
  rw [← Option.isSome_iff_exists, accepted?_isSome]
  unfold kept at h
  split at h
  · cases h
  · simp_all

end Verdict

namespace Field

def Distinct (f : Field) : Prop :=
  (f.content.map fun c => (Record.content c.record).key).Nodup

theorem getElem?_of_mem_targets {f : Field} {c : Content} {i : Nat} (h : i ∈ f.targets c) :
    ∃ a, f.applications[i]? = some a := by
  unfold targets at h
  dsimp only at h
  split at h
  · exact ⟨_, List.getElem?_eq_getElem (effective_lt (Option.mem_toList.1 h))⟩
  · obtain ⟨⟨a, j⟩, ha, hj⟩ := List.mem_filterMap.1 h
    dsimp only at hj
    split at hj
    · obtain rfl := Option.some.inj hj
      exact ⟨a, List.mem_zipIdx_iff_getElem?.1 ha⟩
    · cases hj

theorem mem_tentative_of_mem_targets {f : Field} {runtime : Properties} {i : Nat}
    {c : Stored Content} (hc : c ∈ f.content) (h : i ∈ f.targets c.record) :
    c ∈ f.tentative runtime i := by
  have ht : (f.targets c.record).contains i = true := List.contains_iff_mem.2 h
  unfold tentative
  split
  · exact List.mem_filter.2 ⟨hc, by simp [h]⟩
  · exact List.mem_filter.2 ⟨hc, ht⟩

theorem targets_ne_nil_of_tentative {f : Field} {runtime : Properties} {i : Nat}
    {c : Stored Content} (h : c ∈ f.tentative runtime i) : f.targets c.record ≠ [] := by
  intro hnil
  unfold tentative at h
  split at h
  · simp [defaultMembers, isHomeless, hnil] at h
  · simp [membersAt, hnil] at h

theorem tentative_sublist (f : Field) (runtime : Properties) (i : Nat) :
    (f.tentative runtime i).Sublist f.content := by
  unfold tentative
  split
  · exact List.filter_sublist
  · exact List.filter_sublist

section Content

variable {f : Field} {runtime : Properties}

theorem kept_sublist_content {v : Verdict} (hv : v ∈ f.verdicts runtime) :
    v.kept.Sublist f.content := by
  obtain ⟨i, a, -, rfl⟩ := mem_verdicts.1 hv
  exact (Verdict.kept_sublist _).trans (f.tentative_sublist runtime i)

/-- Keys tell entries of content apart, so whoever keeps the key of an entry keeps the entry. -/
theorem keeps_of_content (hd : f.Distinct) {c : Stored Content} (hc : c ∈ f.content)
    {v : Verdict} (hv : v ∈ f.verdicts runtime) :
    v.keeps (Record.content c.record).key = true ↔ c ∈ v.kept := by
  rw [Verdict.keeps_iff]
  constructor
  · rintro ⟨c', hk, he⟩
    rwa [List.inj_on_of_nodup_map hd ((kept_sublist_content hv).subset hk) hc he] at hk
  · exact fun hk => ⟨c, hk, rfl⟩

theorem contentFailure?_isSome (hd : f.Distinct) {c : Stored Content} (hc : c ∈ f.content) :
    (f.contentFailure? (f.verdicts runtime) c).isSome =
      !(f.verdicts runtime).any fun v => v.keeps (Record.content c.record).key := by
  by_cases ht : f.targets c.record = []
  · have hno : ((f.verdicts runtime).any fun v => v.keeps (Record.content c.record).key) =
        false := by
      rw [List.any_eq_false]
      intro v hv hk
      have hkept := (keeps_of_content hd hc hv).1 hk
      obtain ⟨i, a, -, rfl⟩ := mem_verdicts.1 hv
      exact targets_ne_nil_of_tentative ((Verdict.kept_sublist _).subset hkept) ht
    simp [contentFailure?, ht, hno]
  · cases hany : (f.verdicts runtime).any fun v => v.keeps (Record.content c.record).key with
    | true => simp [contentFailure?, ht, hany]
    | false =>
      -- One of its targets has judged it, and as nobody keeps it, that one has let it go.
      obtain ⟨i, hi⟩ := List.exists_mem_of_ne_nil _ ht
      obtain ⟨a, ha⟩ := getElem?_of_mem_targets hi
      have hv : judge runtime a (f.tentative runtime i) ∈ f.verdicts runtime :=
        mem_verdicts.2 ⟨i, a, ha, rfl⟩
      rcases Verdict.kept_or_detached (v := judge runtime a (f.tentative runtime i))
        (mem_tentative_of_mem_targets hc hi) with hk | ⟨cause, hcause⟩
      · exact absurd ((keeps_of_content hd hc hv).2 hk) (List.any_eq_false.1 hany _ hv)
      · have hd : (c, cause) ∈ ((f.verdicts runtime).flatMap Verdict.detached).reverse :=
          List.mem_reverse.2 (List.mem_flatMap.2 ⟨_, hv, hcause⟩)
        have hfind : ((((f.verdicts runtime).flatMap Verdict.detached).reverse.find? fun d =>
            (Record.content d.1.record).key == (Record.content c.record).key)).isSome = true :=
          List.find?_isSome.2 ⟨_, hd, beq_self_eq_true _⟩
        simp [contentFailure?, ht, hany, hfind]

theorem contentFailure?_record {vs : List Verdict} {c : Stored Content} {fl : Failure}
    (h : f.contentFailure? vs c = some fl) : fl.record = .content c.record := by
  unfold contentFailure? at h
  dsimp only at h
  split at h
  · obtain rfl := Option.some.inj h
    rfl
  · split at h
    · cases h
    · obtain ⟨_, -, rfl⟩ := Option.map_eq_some_iff.1 h
      rfl

def placed (f : Field) (vs : List Verdict) : List (Stored Content) :=
  f.content.filter fun c => vs.any fun v => v.keeps (Record.content c.record).key

theorem content_split (hd : f.Distinct) :
    (f.content.map fun c => Record.content c.record).Perm
      ((f.content.filterMap (f.contentFailure? (f.verdicts runtime))).map Failure.record ++
        (f.placed (f.verdicts runtime)).map fun c => Record.content c.record) := by
  rw [map_filterMap_eq_map_filter (h := fun c => Record.content c.record)
    fun c _ fl h => contentFailure?_record h]
  have hf : (f.content.filter fun c => (f.contentFailure? (f.verdicts runtime) c).isSome) =
      f.content.filter fun c => !(f.verdicts runtime).any fun v =>
        v.keeps (Record.content c.record).key :=
    List.filter_congr fun c hc => contentFailure?_isSome hd hc
  rw [hf, placed, ← List.map_append]
  exact (List.perm_append_comm.trans (List.filter_append_perm _ _)).symm.map _

end Content

theorem ofPool_distinct {pool : List (Stored Record)}
    (h : (pool.map fun e => e.record.key).Nodup) : (Field.ofPool pool).Distinct := by
  have hp := (ofPool_split pool).map fun e : Stored Record => e.record.key
  rw [List.map_append] at hp
  have hn := (List.nodup_append.1 (hp.nodup_iff.1 h)).2.1
  rwa [List.map_map] at hn

end Field

theorem afterRule_sublist (rule : Rule) (pool : List (Stored Record)) :
    (afterRule rule pool).Sublist pool :=
  (storedContest rule).survivors_sublist pool

theorem afterDefault_sublist_admitted (es : List (Stored Record)) (runtime : Properties) :
    (pools es runtime).afterDefault.Sublist (admitted es runtime) :=
  (afterRule_sublist _ _).trans ((afterRule_sublist _ _).trans (afterRule_sublist _ _))

theorem sound_of_afterDefault {es : List (Stored Record)} {runtime : Properties}
    {e : Stored Record} (h : e ∈ (pools es runtime).afterDefault) :
    e ∈ es ∧ e.record.fault = none := by
  have ha := (afterDefault_sublist_admitted es runtime).subset h
  obtain ⟨he, hs⟩ := List.mem_filter.1 (List.mem_mergeSort.1 ha)
  exact ⟨he, Option.isNone_iff_eq_none.1 (Bool.and_eq_true_iff.1 hs).1⟩

theorem afterDefault_keys_nodup {es : List (Stored Record)} (runtime : Properties)
    (h : (es.map fun e => e.record.key).Nodup) :
    ((pools es runtime).afterDefault.map fun e => e.record.key).Nodup := by
  have hadm : ((admitted es runtime).map fun e => e.record.key).Nodup := by
    have hp : (admitted es runtime).Perm _ := List.mergeSort_perm _ _
    exact (hp.map _).nodup_iff.2 ((List.filter_sublist.map _).nodup h)
  exact ((afterDefault_sublist_admitted es runtime).map _).nodup hadm

theorem perm_of_stages {α : Type} [DecidableEq α]
    {all rejected unsuited pool₀ lost₁ pool₁ lost₂ pool₂ lost₃ pool₃ : List α}
    {apps content broken accepted missing placed : List α}
    (hadmission : all.Perm (rejected ++ (unsuited ++ pool₀)))
    (hpath : pool₀.Perm (lost₁ ++ pool₁)) (hname : pool₁.Perm (lost₂ ++ pool₂))
    (hdefault : pool₂.Perm (lost₃ ++ pool₃)) (hfield : pool₃.Perm (apps ++ content))
    (happs : apps.Perm (broken ++ accepted)) (hcontent : content.Perm (missing ++ placed)) :
    all.Perm ((rejected ++ lost₁ ++ lost₂ ++ lost₃ ++ (broken ++ missing)) ++
      (unsuited ++ (accepted ++ placed))) := by
  rw [List.perm_iff_count]
  intro x
  have h₁ := hadmission.count_eq x
  have h₂ := hpath.count_eq x
  have h₃ := hname.count_eq x
  have h₄ := hdefault.count_eq x
  have h₅ := hfield.count_eq x
  have h₆ := happs.count_eq x
  have h₇ := hcontent.count_eq x
  simp only [List.count_append] at *
  omega

theorem lastOfEach_of_nodup {α κ : Type} [DecidableEq κ] {key : α → κ} {xs : List α}
    (h : (xs.map key).Nodup) : lastOfEach key xs = xs := by
  induction xs with
  | nil => rfl
  | cons x xs ih =>
    obtain ⟨hx, hxs⟩ := List.nodup_cons.1 h
    have hany : (xs.any fun y => key y == key x) = false := by
      rw [List.any_eq_false]
      intro y hy hk
      exact hx (List.mem_map.2 ⟨y, hy, beq_iff_eq.1 hk⟩)
    simp [lastOfEach, hany, ih hxs]

end Pass

namespace Reconciler

def reported (r : Reconciler) (s : Snapshot) (runtime : Properties) : List Failure :=
  Pass.allFailures (Pass.candidates r.builtin s)
    (Pass.pools (Pass.candidates r.builtin s) runtime) (r.field s runtime) (r.verdicts s runtime)

def accepted (r : Reconciler) (s : Snapshot) (runtime : Properties) : List Accepted :=
  (r.verdicts s runtime).filterMap Pass.Verdict.accepted?

def placed (r : Reconciler) (s : Snapshot) (runtime : Properties) : List (Stored Content) :=
  (r.field s runtime).placed (r.verdicts s runtime)

/-- The store holds one record under each key, and none under that of the built-in default. -/
structure Fits (r : Reconciler) (s : Snapshot) : Prop where
  keyed : s.Keyed
  builtin_free : ∀ e ∈ s.entries, e.record.key ≠ (Record.application r.builtin).key

variable {r : Reconciler} {s : Snapshot}

theorem Fits.candidates_nodup (h : r.Fits s) :
    ((Pass.candidates r.builtin s).map fun e => e.record.key).Nodup := by
  rw [Pass.candidates, List.map_append, List.nodup_append]
  refine ⟨h.keyed, by simp, ?_⟩
  intro k hk k' hk' he
  obtain ⟨e, hm, rfl⟩ := List.mem_map.1 hk
  obtain rfl := List.mem_singleton.1 hk'
  exact h.builtin_free e hm he

theorem Fits.field_distinct (h : r.Fits s) (runtime : Properties) :
    (r.field s runtime).Distinct :=
  Pass.Field.ofPool_distinct (Pass.afterDefault_keys_nodup runtime h.candidates_nodup)

theorem conserves_of_distinct {runtime : Properties} (hd : (r.field s runtime).Distinct) :
    ((Pass.candidates r.builtin s).map Stored.record).Perm
      ((r.reported s runtime).map Failure.record ++
        ((Pass.unsuited (Pass.candidates r.builtin s) runtime).map Stored.record ++
          ((r.accepted s runtime).map (fun a => Record.application a.application.record) ++
            (r.placed s runtime).map fun c => Record.content c.record))) := by
  have hfield := (Pass.ofPool_split
    (Pass.pools (Pass.candidates r.builtin s) runtime).afterDefault).map Stored.record
  have happs := ((r.field s runtime).verdicts_applications runtime).map
    fun a => Record.application a.record
  rw [List.map_append, List.map_map, List.map_map] at hfield
  rw [List.map_map] at happs
  rw [reported, Pass.allFailures, Pass.Field.failures]
  simp only [List.map_append]
  exact Pass.perm_of_stages (Pass.candidates_split _ runtime) (Pass.afterRule_split .path _)
    (Pass.afterRule_split .name _) (Pass.afterRule_split .default _) hfield
    (happs.symm.trans (Pass.verdicts_split _)) (Pass.Field.content_split hd)

theorem Fits.conserves (h : r.Fits s) (runtime : Properties) :
    ((Pass.candidates r.builtin s).map Stored.record).Perm
      ((r.reported s runtime).map Failure.record ++
        ((Pass.unsuited (Pass.candidates r.builtin s) runtime).map Stored.record ++
          ((r.accepted s runtime).map (fun a => Record.application a.application.record) ++
            (r.placed s runtime).map fun c => Record.content c.record))) :=
  conserves_of_distinct (h.field_distinct runtime)

end Reconciler

namespace Accepted

def key (a : Accepted) : Key :=
  (Record.application a.application.record).key

def contentKeys (a : Accepted) : List Key :=
  a.content.map fun c => (Record.content c.record).key

end Accepted

namespace Resolution

def failedKeys (r : Resolution) (kind : Kind) : List Key :=
  (r.failures kind).map fun f => f.record.key

structure Omits (r : Resolution) (k : Key) : Prop where
  not_failed : ∀ kind, k ∉ r.failedKeys kind
  not_deployed : ∀ a ∈ r.applications, a.key ≠ k ∧ k ∉ a.contentKeys

structure Fails (r : Resolution) (k : Key) : Prop where
  once : (r.failedKeys k.kind).count k = 1
  not_elsewhere : ∀ kind, kind ≠ k.kind → k ∉ r.failedKeys kind
  not_deployed : ∀ a ∈ r.applications, a.key ≠ k ∧ k ∉ a.contentKeys

structure Deploys (r : Resolution) (k : Key) : Prop where
  application : k.kind = .application → (r.applications.map Accepted.key).count k = 1
  content : k.kind ≠ .application → (∃ a ∈ r.applications, k ∈ a.contentKeys) ∧
    ∀ a ∈ r.applications, a.contentKeys.count k ≤ 1
  not_failed : ∀ kind, k ∉ r.failedKeys kind

structure DrawnFrom (r : Resolution) (es : List (Stored Record)) : Prop where
  failures : ∀ kind, ∀ f ∈ r.failures kind,
    f.record.kind = kind ∧ f.record ∈ es.map Stored.record
  applications : ∀ a ∈ r.applications, Stored.ofApplication a.application ∈ es
  resources : ∀ a ∈ r.applications, ∀ c ∈ a.resources,
    c.record.kind = .resource ∧ Stored.ofContent c ∈ es
  extensions : ∀ a ∈ r.applications, ∀ c ∈ a.extensions,
    c.record.kind = .extension ∧ Stored.ofContent c ∈ es
  default_deployed : ∀ id, r.defaultApplication = some id → ∃ a ∈ r.applications, a.id = id

end Resolution

inductive Fate where
  | unsuited
  | failed
  | accepted
  deriving DecidableEq, Repr

/-- What it takes for an entry to have a fate in a resolution. -/
def Resolution.Gives (r : Resolution) (runtime : Properties) (e : Stored Record) : Fate → Prop
  | .unsuited => e.record.fault = none ∧ e.record.profile.suits runtime = false ∧
      r.Omits e.record.key
  | .failed => r.Fails e.record.key
  | .accepted => r.Deploys e.record.key

theorem Resolution.gives_unique {r : Resolution} {runtime : Properties} {e : Stored Record}
    {x y : Fate} (hx : r.Gives runtime e x) (hy : r.Gives runtime e y) : x = y := by
  have hfd : r.Fails e.record.key → ¬ r.Deploys e.record.key := by
    intro hf hd
    have := List.count_eq_zero.2 (hd.not_failed e.record.key.kind)
    have := hf.once
    omega
  have hof : r.Omits e.record.key → ¬ r.Fails e.record.key := by
    intro ho hf
    have := List.count_eq_zero.2 (ho.not_failed e.record.key.kind)
    have := hf.once
    omega
  have hod : r.Omits e.record.key → ¬ r.Deploys e.record.key := by
    intro ho hd
    by_cases hk : e.record.key.kind = .application
    · have hm := List.count_pos_iff.1 (Nat.lt_of_lt_of_eq Nat.zero_lt_one (hd.application hk).symm)
      obtain ⟨a, ha, hak⟩ := List.mem_map.1 hm
      exact (ho.not_deployed a ha).1 hak
    · obtain ⟨⟨a, ha, hak⟩, -⟩ := hd.content hk
      exact (ho.not_deployed a ha).2 hak
  cases x <;> cases y <;> simp only [Gives] at hx hy <;> first | rfl | exfalso
  · exact hof hx.2.2 hy
  · exact hod hx.2.2 hy
  · exact hof hy.2.2 hx
  · exact hfd hx hy
  · exact hod hy.2.2 hx
  · exact hfd hy hx

namespace Reconciler

variable {r : Reconciler} {s : Snapshot}

theorem Fits.keys_conserved (h : r.Fits s) (runtime : Properties) :
    ((Pass.candidates r.builtin s).map fun e => e.record.key).Perm
      ((r.reported s runtime).map (fun f => f.record.key) ++
        ((Pass.unsuited (Pass.candidates r.builtin s) runtime).map (fun e => e.record.key) ++
          ((r.accepted s runtime).map Accepted.key ++
            (r.placed s runtime).map fun c => (Record.content c.record).key))) := by
  have hp := (h.conserves runtime).map Record.key
  simp only [List.map_append, List.map_map] at hp
  exact hp

theorem Fits.reported_nodup (h : r.Fits s) (runtime : Properties) :
    ((r.reported s runtime).map fun f => f.record.key).Nodup :=
  (List.nodup_append.1 ((h.keys_conserved runtime).nodup_iff.1 h.candidates_nodup)).1

theorem Fits.failures_perm (h : r.Fits s) (runtime : Properties) (kind : Kind) :
    ((r.run s runtime).failures kind).Perm
      ((r.reported s runtime).filter fun f => f.record.kind == kind) := by
  have hl : Pass.lastOfEachKey (r.reported s runtime) = r.reported s runtime :=
    Pass.lastOfEach_of_nodup (h.reported_nodup runtime)
  have hs : (r.run s runtime).failures kind = Pass.sortFailures
      ((Pass.lastOfEachKey (r.reported s runtime)).filter fun f => f.record.kind == kind) := by
    cases kind <;> rfl
  rw [hs, hl]
  exact List.mergeSort_perm _ _

theorem applications_perm (r : Reconciler) (s : Snapshot) (runtime : Properties) :
    (r.run s runtime).applications.Perm (r.accepted s runtime) :=
  List.mergeSort_perm _ _

theorem Fits.mem_failedKeys_iff (h : r.Fits s) {runtime : Properties} {kind : Kind} {k : Key} :
    k ∈ (r.run s runtime).failedKeys kind ↔
      k.kind = kind ∧ k ∈ (r.reported s runtime).map fun f => f.record.key := by
  rw [Resolution.failedKeys, ((h.failures_perm runtime kind).map _).mem_iff]
  simp only [List.mem_map, List.mem_filter, beq_iff_eq]
  constructor
  · rintro ⟨f, ⟨hf, rfl⟩, rfl⟩
    exact ⟨rfl, f, hf, rfl⟩
  · rintro ⟨rfl, f, hf, rfl⟩
    exact ⟨f, ⟨hf, rfl⟩, rfl⟩

theorem Fits.failedKeys_nodup (h : r.Fits s) (runtime : Properties) (kind : Kind) :
    ((r.run s runtime).failedKeys kind).Nodup := by
  rw [Resolution.failedKeys, ((h.failures_perm runtime kind).map _).nodup_iff]
  exact (List.filter_sublist.map _).nodup (h.reported_nodup runtime)

theorem mem_accepted {runtime : Properties} {a : Accepted} :
    a ∈ r.accepted s runtime ↔ ∃ v ∈ r.verdicts s runtime, v.accepted? = some a :=
  List.mem_filterMap

/-- Content is listed by some accepted application exactly when a verdict keeps it. -/
theorem Fits.mem_placed_iff (h : r.Fits s) {runtime : Properties} {k : Key} :
    k ∈ (r.placed s runtime).map (fun c => (Record.content c.record).key) ↔
      ∃ a ∈ r.accepted s runtime, k ∈ a.contentKeys := by
  have hd := h.field_distinct runtime
  constructor
  · intro hk
    obtain ⟨c, hc, rfl⟩ := List.mem_map.1 hk
    obtain ⟨hcf, hany⟩ := List.mem_filter.1 hc
    obtain ⟨v, hv, hkeep⟩ := List.any_eq_true.1 hany
    have hkept := (Pass.Field.keeps_of_content hd hcf hv).1 hkeep
    obtain ⟨a, ha⟩ := Pass.Verdict.exists_accepted_of_kept hkept
    refine ⟨a, mem_accepted.2 ⟨v, hv, ha⟩, List.mem_map.2 ⟨c, ?_, rfl⟩⟩
    exact (Pass.Verdict.content_perm_kept ha).mem_iff.2 hkept
  · rintro ⟨a, ha, hk⟩
    obtain ⟨v, hv, hva⟩ := mem_accepted.1 ha
    obtain ⟨c, hc, rfl⟩ := List.mem_map.1 hk
    have hkept := (Pass.Verdict.content_perm_kept hva).mem_iff.1 hc
    have hcf := (Pass.Field.kept_sublist_content hv).subset hkept
    refine List.mem_map.2 ⟨c, List.mem_filter.2 ⟨hcf, List.any_eq_true.2 ⟨_, hv, ?_⟩⟩, rfl⟩
    exact (Pass.Field.keeps_of_content hd hcf hv).2 hkept

theorem Fits.contentKeys_nodup (h : r.Fits s) {runtime : Properties} {a : Accepted}
    (ha : a ∈ r.accepted s runtime) : a.contentKeys.Nodup := by
  obtain ⟨v, hv, hva⟩ := mem_accepted.1 ha
  rw [Accepted.contentKeys, ((Pass.Verdict.content_perm_kept hva).map _).nodup_iff]
  exact ((Pass.Field.kept_sublist_content hv).map _).nodup (h.field_distinct runtime)

theorem mem_field {runtime : Properties} {e : Stored Record}
    (h : e ∈ (r.field s runtime).applications.map Stored.ofApplication ++
      (r.field s runtime).content.map Stored.ofContent) : e ∈ Pass.candidates r.builtin s := by
  exact (Pass.sound_of_afterDefault ((Pass.ofPool_split _).mem_iff.2 h)).1

theorem application_mem_field {runtime : Properties} {a : Accepted}
    (h : a ∈ (r.run s runtime).applications) :
    a.application ∈ (r.field s runtime).applications := by
  obtain ⟨v, hv, hva⟩ := mem_applications.1 h
  obtain ⟨i, app, happ, rfl⟩ := Pass.Field.mem_verdicts.1 hv
  rw [Pass.Verdict.application_of_accepted? hva]
  exact List.mem_of_getElem? happ

theorem content_mem_field {runtime : Properties} {a : Accepted}
    (h : a ∈ (r.run s runtime).applications)
    {c : Stored Content} (hc : c ∈ a.content) : c ∈ (r.field s runtime).content := by
  obtain ⟨v, hv, hva⟩ := mem_applications.1 h
  have hkept := (Pass.Verdict.content_perm_kept hva).mem_iff.1 hc
  exact (Pass.Field.kept_sublist_content hv).subset hkept

theorem Fits.drawnFrom (h : r.Fits s) (runtime : Properties) :
    (r.run s runtime).DrawnFrom (Pass.candidates r.builtin s) := by
  have hcontent : ∀ a ∈ (r.run s runtime).applications, ∀ c ∈ a.content,
      Stored.ofContent c ∈ Pass.candidates r.builtin s := by
    intro a ha c hc
    exact mem_field (List.mem_append_right _ (List.mem_map_of_mem (content_mem_field ha hc)))
  constructor
  · intro kind f hf
    obtain ⟨hr, hk⟩ := List.mem_filter.1 ((h.failures_perm runtime kind).mem_iff.1 hf)
    refine ⟨beq_iff_eq.1 hk, (h.conserves runtime).mem_iff.2 ?_⟩
    exact List.mem_append_left _ (List.mem_map_of_mem hr)
  · intro a ha
    exact mem_field (List.mem_append_left _ (List.mem_map_of_mem (application_mem_field ha)))
  · intro a ha c hc
    obtain ⟨v, hv, hva⟩ := mem_applications.1 ha
    refine ⟨?_, hcontent a ha c (List.mem_append_left _ hc)⟩
    rw [(Pass.Verdict.accepted?_eq_some hva).2.2.1] at hc
    exact beq_iff_eq.1 (List.mem_filter.1 hc).2
  · intro a ha c hc
    obtain ⟨v, hv, hva⟩ := mem_applications.1 ha
    refine ⟨?_, hcontent a ha c (List.mem_append_right _ hc)⟩
    rw [(Pass.Verdict.accepted?_eq_some hva).2.2.2] at hc
    exact beq_iff_eq.1 (List.mem_filter.1 hc).2
  · intro id hid
    obtain ⟨-, hany⟩ := Option.filter_eq_some_iff.1 hid
    obtain ⟨a, ha, hk⟩ := List.any_eq_true.1 hany
    exact ⟨a, List.mem_mergeSort.2 ha, beq_iff_eq.1 hk⟩

theorem Fits.not_failed (h : r.Fits s) {runtime : Properties} {k : Key}
    (hk : k ∉ (r.reported s runtime).map fun f => f.record.key) :
    ∀ kind, k ∉ (r.run s runtime).failedKeys kind :=
  fun _ hm => hk (h.mem_failedKeys_iff.1 hm).2

theorem Fits.not_deployed (h : r.Fits s) {runtime : Properties} {k : Key}
    (hk : k ∉ (r.accepted s runtime).map Accepted.key)
    (hc : k ∉ (r.placed s runtime).map fun c => (Record.content c.record).key) :
    ∀ a ∈ (r.run s runtime).applications, a.key ≠ k ∧ k ∉ a.contentKeys := by
  intro a ha
  have ha' := (applications_perm r s runtime).mem_iff.1 ha
  constructor
  · rintro rfl
    exact hk (List.mem_map_of_mem ha')
  · exact fun hm => hc (h.mem_placed_iff.2 ⟨a, ha', hm⟩)

theorem Fits.fails (h : r.Fits s) {runtime : Properties} {k : Key}
    (hf : k ∈ (r.reported s runtime).map fun f => f.record.key)
    (hk : k ∉ (r.accepted s runtime).map Accepted.key)
    (hc : k ∉ (r.placed s runtime).map fun c => (Record.content c.record).key) :
    (r.run s runtime).Fails k := by
  refine ⟨?_, ?_, h.not_deployed hk hc⟩
  · exact List.count_eq_one_of_mem (h.failedKeys_nodup runtime k.kind)
      (h.mem_failedKeys_iff.2 ⟨rfl, hf⟩)
  · intro kind hne hm
    exact hne (h.mem_failedKeys_iff.1 hm).1.symm

theorem Fits.deploys_application (h : r.Fits s) {runtime : Properties} {k : Key}
    (hf : k ∉ (r.reported s runtime).map fun f => f.record.key)
    (hk : ((r.accepted s runtime).map Accepted.key).count k = 1) :
    (r.run s runtime).Deploys k := by
  refine ⟨fun _ => ?_, fun hne => ?_, h.not_failed hf⟩
  · rw [((applications_perm r s runtime).map _).count_eq]
    exact hk
  · have hm := List.count_pos_iff.1 (Nat.lt_of_lt_of_eq Nat.zero_lt_one hk.symm)
    obtain ⟨a, -, rfl⟩ := List.mem_map.1 hm
    exact absurd rfl hne

theorem Fits.deploys_content (h : r.Fits s) {runtime : Properties} {k : Key}
    (hf : k ∉ (r.reported s runtime).map fun f => f.record.key)
    (hc : k ∈ (r.placed s runtime).map fun c => (Record.content c.record).key) :
    (r.run s runtime).Deploys k := by
  refine ⟨fun hkind => ?_, fun _ => ⟨?_, ?_⟩, h.not_failed hf⟩
  · obtain ⟨c, -, rfl⟩ := List.mem_map.1 hc
    cases hck : c.record.kind <;> simp [Record.key, Record.kind, ContentKind.kind, hck] at hkind
  · obtain ⟨a, ha, hm⟩ := h.mem_placed_iff.1 hc
    exact ⟨a, (applications_perm r s runtime).mem_iff.2 ha, hm⟩
  · intro a ha
    exact List.nodup_iff_count_le_one.1
      (h.contentKeys_nodup ((applications_perm r s runtime).mem_iff.1 ha)) k

theorem Fits.accepted_nodup (h : r.Fits s) (runtime : Properties) :
    ((r.accepted s runtime).map Accepted.key).Nodup := by
  have hn := (h.keys_conserved runtime).nodup_iff.1 h.candidates_nodup
  exact (List.nodup_append.1 (List.nodup_append.1 (List.nodup_append.1 hn).2.1).2.1).1

theorem mem_unsuited_iff (h : r.Fits s) (runtime : Properties) {e : Stored Record}
    (he : e ∈ Pass.candidates r.builtin s) :
    e.record.key ∈ (Pass.unsuited (Pass.candidates r.builtin s) runtime).map
      (fun e => e.record.key) ↔ e.record.fault = none ∧ e.record.profile.suits runtime = false := by
  constructor
  · intro hm
    obtain ⟨e', hu, hk⟩ := List.mem_map.1 hm
    obtain ⟨he', hp⟩ := List.mem_filter.1 hu
    obtain rfl := List.inj_on_of_nodup_map h.candidates_nodup he' he hk
    simpa using hp
  · intro hp
    exact List.mem_map.2 ⟨e, List.mem_filter.2 ⟨he, by simpa using hp⟩, rfl⟩

/-- An entry of four lists without repetition stands in one of them only. -/
theorem mem_one_of_four {α : Type} {x : α} {as bs cs ds : List α}
    (hn : (as ++ (bs ++ (cs ++ ds))).Nodup) (hx : x ∈ as ++ (bs ++ (cs ++ ds))) :
    (x ∈ as ∧ x ∉ bs ∧ x ∉ cs ∧ x ∉ ds) ∨ (x ∉ as ∧ x ∈ bs ∧ x ∉ cs ∧ x ∉ ds) ∨
      (x ∉ as ∧ x ∉ bs ∧ x ∈ cs ∧ x ∉ ds) ∨ (x ∉ as ∧ x ∉ bs ∧ x ∉ cs ∧ x ∈ ds) := by
  obtain ⟨-, hn, ha⟩ := List.nodup_append.1 hn
  obtain ⟨-, hn, hb⟩ := List.nodup_append.1 hn
  obtain ⟨-, -, hc⟩ := List.nodup_append.1 hn
  simp only [List.mem_append] at hx ha hb
  by_cases hxa : x ∈ as
  · exact Or.inl ⟨hxa, fun h => ha x hxa x (Or.inl h) rfl,
      fun h => ha x hxa x (Or.inr (Or.inl h)) rfl, fun h => ha x hxa x (Or.inr (Or.inr h)) rfl⟩
  by_cases hxb : x ∈ bs
  · exact Or.inr (Or.inl ⟨hxa, hxb, fun h => hb x hxb x (Or.inl h) rfl,
      fun h => hb x hxb x (Or.inr h) rfl⟩)
  rcases hx with hx | hx | hx | hx
  · exact absurd hx hxa
  · exact absurd hx hxb
  · exact Or.inr (Or.inr (Or.inl ⟨hxa, hxb, hx, fun h => hc x hx x h rfl⟩))
  · exact Or.inr (Or.inr (Or.inr ⟨hxa, hxb, fun h => hc x h x hx rfl, hx⟩))

/-- Nobody is lost by a pass and nobody is counted twice: every stored provider and the built-in
default has exactly one fate. A sound provider that is meant for another runtime does not show up
at all, and nothing shows up that is not a candidate. -/
theorem run_gives_one_fate (r : Reconciler) (s : Snapshot) (runtime : Properties)
    (h : r.Fits s) :
    (∀ e ∈ Pass.candidates r.builtin s,
      (∃! fate, (r.run s runtime).Gives runtime e fate) ∧
      (e.record.fault = none → e.record.profile.suits runtime = false →
        (r.run s runtime).Omits e.record.key)) ∧
    (r.run s runtime).DrawnFrom (Pass.candidates r.builtin s) := by
  refine ⟨fun e he => ?_, h.drawnFrom runtime⟩
  have hkeys := h.keys_conserved runtime
  have hkey : e.record.key ∈ (Pass.candidates r.builtin s).map fun e => e.record.key :=
    List.mem_map_of_mem he
  have hunsuited := mem_unsuited_iff h runtime he
  have unique : ∀ {fate}, (r.run s runtime).Gives runtime e fate →
      ∃! fate, (r.run s runtime).Gives runtime e fate :=
    fun hg => ⟨_, hg, fun _ hy => Resolution.gives_unique hy hg⟩
  rcases mem_one_of_four (hkeys.nodup_iff.1 h.candidates_nodup) (hkeys.mem_iff.1 hkey) with
    ⟨hf, hu, ha, hp⟩ | ⟨hf, hu, ha, hp⟩ | ⟨hf, hu, ha, hp⟩ | ⟨hf, hu, ha, hp⟩
  · have hg : (r.run s runtime).Gives runtime e .failed := h.fails hf ha hp
    exact ⟨unique hg, fun h₁ h₂ => absurd (hunsuited.2 ⟨h₁, h₂⟩) hu⟩
  · have ho : (r.run s runtime).Omits e.record.key := ⟨h.not_failed hf, h.not_deployed ha hp⟩
    have hg : (r.run s runtime).Gives runtime e .unsuited :=
      ⟨(hunsuited.1 hu).1, (hunsuited.1 hu).2, ho⟩
    exact ⟨unique hg, fun _ _ => ho⟩
  · have hg : (r.run s runtime).Gives runtime e .accepted :=
      h.deploys_application hf (List.count_eq_one_of_mem (h.accepted_nodup runtime) ha)
    exact ⟨unique hg, fun h₁ h₂ => absurd (hunsuited.2 ⟨h₁, h₂⟩) hu⟩
  · have hg : (r.run s runtime).Gives runtime e .accepted := h.deploys_content hf hp
    exact ⟨unique hg, fun h₁ h₂ => absurd (hunsuited.2 ⟨h₁, h₂⟩) hu⟩

end Reconciler

namespace Shop

theorem store_fits : reconciler.Fits store :=
  ⟨by decide +kernel, by decide +kernel⟩

theorem basket_has_one_fate : reconciler.Fits store ∧
    ∃! fate, (reconciler.run store .empty).Gives .empty ⟨3, basket⟩ fate := by
  have hfates := (Reconciler.run_gives_one_fate reconciler store .empty store_fits).1
  exact ⟨store_fits, (hfates ⟨3, basket⟩ (by decide +kernel)).1⟩

end Shop

end Reconciliation
