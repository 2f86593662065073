import Mathlib.Data.List.InsertIdx
import Reconciliation.Proofs.Resolution.Bystander
import Reconciliation.Proofs.Resolution.Inertness

/-! # Resources keep to themselves

Where no other provider of the pool bears the name of a resource, a pass without it goes the same
way from the first stage to the last.
-/
namespace Reconciliation

theorem ContentKind.eq_resource {kind : ContentKind} (h : kind.kind = .resource) :
    kind = .resource := by
  cases kind
  · rfl
  · cases h

def Pass.contentWithout (k : Key) (cs : List (Stored Content)) : List (Stored Content) :=
  cs.filter fun c => (Record.content c.record).key != k

def Accepted.without (k : Key) (a : Accepted) : Accepted :=
  { a with resources := Pass.contentWithout k a.resources }

namespace Pass

section Rules

variable {k : Key} {pool : List (Stored Record)}

def NameOwn (k : Key) (pool : List (Stored Record)) : Prop :=
  ∀ y ∈ pool, y.record.key = k → ∀ z ∈ pool, z.record.name = y.record.name →
    z.record.id = y.record.id

theorem NameOwn.sublist {pool' : List (Stored Record)} (h : NameOwn k pool)
    (hs : pool'.Sublist pool) : NameOwn k pool' :=
  fun y hy hk z hz => h y (hs.subset hy) hk z (hs.subset hz)

/-- Whoever competes with a resource is spared by everybody who does. -/
theorem spares_of_nameOwn (hk : k.kind = .resource) (h : NameOwn k pool) (rule : Rule) :
    ∀ y ∈ pool, (y.record.key != k) = false → ∀ stake, (storedContest rule).stake y = some stake →
      ∀ w ∈ pool, ∀ z ∈ pool, (storedContest rule).stake w = some stake →
        (storedContest rule).stake z = some stake → (storedContest rule).spares w z = true := by
  rintro ⟨n, y⟩ hy hkey stake hstake w hw z hz hws hzs
  have hkey : y.key = k := by simpa using hkey
  cases y with
  | application a =>
    rw [← hkey] at hk
    cases hk
  | content c =>
    cases rule with
    | path => cases hstake
    | default => cases hstake
    | name =>
      have hname : ∀ v ∈ pool, (storedContest .name).stake v = some stake →
          v.record.id = c.profile.id := by
        intro v hv hvs
        have hvname : v.record.name = stake := by
          simp only [storedContest, Contest.through, Record.contest, nameContest,
            Record.nameClaim] at hvs
          split at hvs
          · cases hvs
          · exact Option.some.inj hvs
        exact h _ hy hkey v hv (hvname.trans (Option.some.inj hstake).symm)
      exact beq_iff_eq.2 ((hname w hw hws).trans (hname z hz hzs).symm)

theorem afterRule_without (hk : k.kind = .resource) (h : NameOwn k pool) (rule : Rule) :
    afterRule rule (without k pool) = without k (afterRule rule pool) :=
  Contest.survivors_filter (spares_of_nameOwn hk h rule)

theorem lostTo_without (hk : k.kind = .resource) (h : NameOwn k pool) (rule : Rule) :
    lostTo rule (without k pool) = failuresWithout k (lostTo rule pool) := by
  rw [lostTo, without, Contest.losses_filter (spares_of_nameOwn hk h rule), lostTo,
    failuresWithout, List.filter_map]
  rfl

def Pools.without (k : Key) (p : Pools) : Pools where
  admitted := Pass.without k p.admitted
  afterPath := Pass.without k p.afterPath
  afterName := Pass.without k p.afterName
  afterDefault := Pass.without k p.afterDefault

theorem pools_without {es : List (Stored Record)} {runtime : Properties} (hk : k.kind = .resource)
    (h : NameOwn k (admitted es runtime)) :
    pools (without k es) runtime = (pools es runtime).without k := by
  have hpath := h.sublist (afterRule_sublist .path _)
  have hname := hpath.sublist (afterRule_sublist .name _)
  simp only [pools, Pools.without, admitted_without, afterRule_without hk h,
    afterRule_without hk hpath, afterRule_without hk hname]

end Rules

def Field.without (k : Key) (f : Field) : Field :=
  { f with content := contentWithout k f.content }

section Field

variable {k : Key}

theorem poolContent_without (pool : List (Stored Record)) :
    poolContent (without k pool) = contentWithout k (poolContent pool) := by
  induction pool with
  | nil => rfl
  | cons e pool ih =>
    obtain ⟨n, y⟩ := e
    by_cases hkey : y.key = k
    · have hskip : without k (⟨n, y⟩ :: pool) = without k pool := by simp [without, hkey]
      rw [hskip, ih]
      cases y with
      | application a => rfl
      | content c => simp [poolContent, contentWithout, Record.content?, hkey]
    · have htake : without k (⟨n, y⟩ :: pool) = ⟨n, y⟩ :: without k pool := by
        simp [without, hkey]
      rw [htake]
      cases y with
      | application a => exact ih
      | content c => simp_all [poolContent, contentWithout, Record.content?]

theorem ofPool_applications (pool : List (Stored Record)) : (Field.ofPool pool).applications =
    pool.filterMap fun e => e.record.application?.map fun a => ⟨e.revision, a⟩ := rfl

theorem ofPool_content (pool : List (Stored Record)) : (Field.ofPool pool).content =
    (poolContent pool).filter (fun c => c.record.kind == .resource) ++
      (poolContent pool).filter fun c => c.record.kind == .extension := rfl

theorem applications_without (hk : k.kind = .resource) (pool : List (Stored Record)) :
    (Field.ofPool (without k pool)).applications = (Field.ofPool pool).applications := by
  rw [ofPool_applications, ofPool_applications, without, List.filterMap_filter]
  congr 1
  funext e
  obtain ⟨n, y⟩ := e
  cases y with
  | content c => simp [Record.application?]
  | application a =>
    have hne : (Record.application a).key ≠ k := by
      rintro rfl
      cases hk
    simp [hne]

theorem ofPool_without (hk : k.kind = .resource) (pool : List (Stored Record)) :
    Field.ofPool (without k pool) = (Field.ofPool pool).without k := by
  have hcontent : (Field.ofPool (without k pool)).content =
      contentWithout k (Field.ofPool pool).content := by
    rw [ofPool_content, ofPool_content, poolContent_without, contentWithout, contentWithout,
      List.filter_append]
    exact congrArg₂ (· ++ ·) (List.filter_comm ..) (List.filter_comm ..)
  rw [Field.without, ← hcontent, ← applications_without hk pool]

end Field

def Verdict.without (runtime : Properties) (k : Key) (v : Verdict) : Verdict :=
  judge runtime v.application (contentWithout k v.members)

structure Verdict.Forgets (k : Key) (v w : Verdict) : Prop where
  application : w.application = v.application
  broken : w.outcome.application = v.outcome.application
  remaining : w.remaining = contentWithout k v.remaining
  detached : w.detached = v.detached.filter fun d => (Record.content d.1.record).key != k

section Judge

variable {runtime : Properties} {a : Stored Application} {k : Key}

theorem contentWithout_eq_self {cs : List (Stored Content)}
    (h : ∀ c ∈ cs, (Record.content c.record).key ≠ k) : contentWithout k cs = cs := by
  refine List.filter_eq_self.2 fun c hc => ?_
  simpa using h c hc

theorem forgets_of_absent {members : List (Stored Content)}
    (h : ∀ c ∈ members, (Record.content c.record).key ≠ k) :
    (judge runtime a members).Forgets k (judge runtime a (contentWithout k members)) := by
  rw [contentWithout_eq_self h]
  refine ⟨rfl, rfl, (contentWithout_eq_self fun c hc => ?_).symm, ?_⟩
  · exact h c ((judge runtime a members).remaining_sublist.subset hc)
  · refine (List.filter_eq_self.2 fun d hd => ?_).symm
    have hmem : d.1 ∈ (judge runtime a members).members :=
      (Verdict.mem_detached hd).elim Verdict.mem_members_of_takenOut
        Verdict.mem_members_of_leftBehind
    simpa using h d.1 hmem

section Present

variable {members : List (Stored Content)} {p : Nat} {x : Stored Content}

theorem key_eq_iff_place (hn : (members.map fun c => (Record.content c.record).key).Nodup)
    (hx : members[p]? = some x) (hxk : (Record.content x.record).key = k) {i : Nat}
    {c : Stored Content} (hc : members[i]? = some c) :
    (Record.content c.record).key = k ↔ i = p := by
  constructor
  · intro hck
    have hlt := (List.getElem?_eq_some_iff.1 hc).1
    have hkeys : (members.map fun c => (Record.content c.record).key)[i]? =
        (members.map fun c => (Record.content c.record).key)[p]? := by
      rw [List.getElem?_map, List.getElem?_map, hc, hx, Option.map_some, Option.map_some, hck, hxk]
    exact (List.getElem?_inj (by simpa using hlt) hn).1 hkeys
  · rintro rfl
    rwa [← Option.some.inj (hx.symm.trans hc)]

theorem zipIdx_eraseIdx {α : Type} (xs : List α) (n p : Nat) :
    (((xs.eraseIdx p).zipIdx n).map fun q => (q.1, skip (n + p) q.2)) =
      (xs.zipIdx n).filter fun q => q.2 != n + p := by
  induction xs generalizing n p with
  | nil => rfl
  | cons x xs ih =>
    cases p with
    | zero =>
      have hrest : ((xs.zipIdx (n + 1)).filter fun q => q.2 != n) = xs.zipIdx (n + 1) := by
        refine List.filter_eq_self.2 fun q hq => ?_
        have := List.le_snd_of_mem_zipIdx hq
        simp only [bne_iff_ne]
        omega
      rw [List.eraseIdx_cons_zero, List.zipIdx_cons, List.filter_cons_of_neg (by simp),
        Nat.add_zero, hrest, List.zipIdx_succ]
      refine List.map_congr_left fun q hq => ?_
      have := List.le_snd_of_mem_zipIdx hq
      simp only [skip, Prod.mk.injEq, true_and]
      split <;> omega
    | succ p =>
      have hhead : skip (n + (p + 1)) n = n := by
        unfold skip
        split <;> omega
      have hrest := ih (n + 1) p
      rw [show n + 1 + p = n + (p + 1) by omega] at hrest
      rw [List.eraseIdx_cons_succ, List.zipIdx_cons, List.zipIdx_cons, List.map_cons, hhead, hrest,
        List.filter_cons_of_pos (by simp)]

theorem places_without (hn : (members.map fun c => (Record.content c.record).key).Nodup)
    (hx : members[p]? = some x) (hxk : (Record.content x.record).key = k) :
    (members.zipIdx.filter fun q => (Record.content q.1.record).key != k) =
      (members.eraseIdx p).zipIdx.map fun q => (q.1, skip p q.2) := by
  have hzip := zipIdx_eraseIdx members 0 p
  rw [Nat.zero_add] at hzip
  rw [hzip]
  refine List.filter_congr fun q hq => ?_
  have hplace := key_eq_iff_place hn hx hxk (List.mem_zipIdx_iff_getElem?.1 hq)
  rw [Bool.eq_iff_iff, bne_iff_ne, bne_iff_ne, ne_eq, ne_eq, hplace]

theorem contentWithout_eq_eraseIdx
    (hn : (members.map fun c => (Record.content c.record).key).Nodup)
    (hx : members[p]? = some x) (hxk : (Record.content x.record).key = k) :
    contentWithout k members = members.eraseIdx p := by
  have hview : contentWithout k members =
      (members.zipIdx.filter fun q => (Record.content q.1.record).key != k).map Prod.fst := by
    conv_lhs => rw [← List.zipIdx_map_fst 0 members, contentWithout, List.filter_map]
    rfl
  rw [hview, places_without hn hx hxk, List.map_map]
  exact List.zipIdx_map_fst 0 _

theorem siteOf_eraseIdx (runtime : Properties) (a : Stored Application)
    (members : List (Stored Content)) (p : Nat) :
    siteOf runtime a (members.eraseIdx p) = (siteOf runtime a members).drop p := by
  simp [siteOf, Site.drop, List.eraseIdx_map]

theorem outcome_eraseIdx (hk : k.kind = .resource) (hx : members[p]? = some x)
    (hxk : (Record.content x.record).key = k) :
    (judge runtime a members).outcome.Forgets p
      (judge runtime a (members.eraseIdx p)).outcome := by
  have hm : (siteOf runtime a members).members[p]? = some (memberOf x.record) :=
    siteOf_getElem?.2 ⟨x, hx, rfl⟩
  rw [judge_outcome, judge_outcome, siteOf_eraseIdx]
  refine Site.check_drop hm (ContentKind.eq_resource ?_)
  rw [← hxk] at hk
  exact hk

theorem remaining_eraseIdx (hk : k.kind = .resource)
    (hn : (members.map fun c => (Record.content c.record).key).Nodup)
    (hx : members[p]? = some x) (hxk : (Record.content x.record).key = k) :
    (judge runtime a (members.eraseIdx p)).remaining =
      contentWithout k (judge runtime a members).remaining := by
  have houtcome : (judge runtime a members).outcome.Forgets p
      (judge runtime a (members.eraseIdx p)).outcome := outcome_eraseIdx hk hx hxk
  have hstays : (fun q : Stored Content × Nat => !(judge runtime a members).outcome.isRemoved q.2) ∘
      (fun q : Stored Content × Nat => (q.1, skip p q.2)) =
        fun q => !(judge runtime a (members.eraseIdx p)).outcome.isRemoved q.2 := by
    funext q
    simp [houtcome.isRemoved_skip]
  rw [Verdict.remaining_eq, Verdict.remaining_eq, Verdict.staying, Verdict.staying,
    contentWithout, List.filter_map, List.filter_comm]
  change _ = (((members.zipIdx.filter fun q => (Record.content q.1.record).key != k)).filter
    fun q => !(judge runtime a members).outcome.isRemoved q.2).map Prod.fst
  rw [places_without hn hx hxk, List.filter_map, List.map_map, hstays]
  rfl

/-- Those that are taken out are the same but for the one under the key, whose place is skipped. -/
theorem takenOut_eraseIdx (hk : k.kind = .resource)
    (hn : (members.map fun c => (Record.content c.record).key).Nodup)
    (hx : members[p]? = some x) (hxk : (Record.content x.record).key = k) :
    (judge runtime a (members.eraseIdx p)).takenOut =
      (judge runtime a members).takenOut.filter fun d =>
        (Record.content d.1.record).key != k := by
  have hname : (judge runtime a (members.eraseIdx p)).application =
      (judge runtime a members).application := rfl
  have hgone : (judge runtime a members).takenOut.filter (fun d =>
      (Record.content d.1.record).key != k) =
        ((judge runtime a members).outcome.removed.filter fun r => r.1 != p).filterMap fun r =>
          members[r.1]?.map fun c =>
            (c, .unsatisfiedIn r.2 (judge runtime a members).application.record.profile.name) := by
    rw [Verdict.takenOut, List.filter_filterMap, List.filterMap_filter]
    congr 1
    funext r
    cases hc : (judge runtime a members).members[r.1]? with
    | none =>
      have hc : members[r.1]? = none := hc
      simp [hc]
    | some c =>
      have hplace := key_eq_iff_place hn hx hxk hc
      have hc : members[r.1]? = some c := hc
      by_cases hr : r.1 = p
      · simp [Option.filter, hplace.2 hr, hr]
      · have hne : (Record.content c.record).key ≠ k := fun h => hr (hplace.1 h)
        simp [Option.filter, hc, hr, hne]
  rw [hgone, (outcome_eraseIdx hk hx hxk).removed, List.filterMap_map, Verdict.takenOut, hname]
  congr 1
  funext r
  exact congrArg _ (getElem?_eraseIdx_skip members p r.1)

theorem leftBehind_of_remaining {v w : Verdict} (ha : w.application = v.application)
    (h : w.remaining = contentWithout k v.remaining) :
    w.leftBehind = v.leftBehind.filter fun d => (Record.content d.1.record).key != k := by
  rw [Verdict.leftBehind, h, ha, Verdict.leftBehind, List.filter_map]
  rfl

theorem forgets_of_present (hk : k.kind = .resource)
    (hn : (members.map fun c => (Record.content c.record).key).Nodup)
    (hx : members[p]? = some x) (hxk : (Record.content x.record).key = k) :
    (judge runtime a members).Forgets k (judge runtime a (contentWithout k members)) := by
  rw [contentWithout_eq_eraseIdx hn hx hxk]
  have houtcome : (judge runtime a members).outcome.Forgets p
      (judge runtime a (members.eraseIdx p)).outcome := outcome_eraseIdx hk hx hxk
  have hremaining : (judge runtime a (members.eraseIdx p)).remaining =
      contentWithout k (judge runtime a members).remaining := remaining_eraseIdx hk hn hx hxk
  have hleft : (judge runtime a (members.eraseIdx p)).leftBehind =
      (judge runtime a members).leftBehind.filter fun d =>
        (Record.content d.1.record).key != k := leftBehind_of_remaining rfl hremaining
  refine ⟨rfl, houtcome.application, hremaining, ?_⟩
  rw [Verdict.detached_eq, Verdict.detached_eq, houtcome.application,
    takenOut_eraseIdx hk hn hx hxk, hleft]
  split
  · exact (List.filter_append ..).symm
  · rfl

end Present

theorem judge_forgets (hk : k.kind = .resource) {members : List (Stored Content)}
    (hn : (members.map fun c => (Record.content c.record).key).Nodup) :
    (judge runtime a members).Forgets k (judge runtime a (contentWithout k members)) := by
  by_cases h : ∃ x ∈ members, (Record.content x.record).key = k
  · obtain ⟨x, hx, hxk⟩ := h
    obtain ⟨p, hp⟩ := List.mem_iff_getElem?.1 hx
    exact forgets_of_present hk hn hp hxk
  · exact forgets_of_absent fun c hc hck => h ⟨c, hc, hck⟩

end Judge

namespace Verdict.Forgets

variable {k : Key} {v w : Verdict}

theorem kept (h : v.Forgets k w) : w.kept = contentWithout k v.kept := by
  rw [Verdict.kept, Verdict.kept, h.broken, h.remaining]
  split <;> rfl

theorem keeps (h : v.Forgets k w) {key : Key} (hne : key ≠ k) : w.keeps key = v.keeps key := by
  rw [Verdict.keeps, Verdict.keeps, h.kept, contentWithout, List.any_filter]
  congr 1
  funext c
  by_cases hc : (Record.content c.record).key = key
  · simp [hc, hne]
  · simp [hc]

theorem failure? (h : v.Forgets k w) : w.failure? = v.failure? := by
  rw [Verdict.failure?, Verdict.failure?, h.broken, h.application]

theorem accepted? (h : v.Forgets k w) (hk : k.kind = .resource) :
    w.accepted? = v.accepted?.map (Accepted.without k) := by
  have hresources : (contentWithout k v.kept).filter (fun c => c.record.kind == .resource) =
      contentWithout k (v.kept.filter fun c => c.record.kind == .resource) :=
    List.filter_comm ..
  have hextensions : (contentWithout k v.kept).filter (fun c => c.record.kind == .extension) =
      v.kept.filter fun c => c.record.kind == .extension := by
    rw [contentWithout, List.filter_filter]
    refine List.filter_congr fun c _ => ?_
    by_cases hc : c.record.kind = .extension
    · have hne : (Record.content c.record).key ≠ k := by
        rintro rfl
        rw [Record.key, Record.kind, hc] at hk
        cases hk
      simp [hc, hne]
    · simp [hc]
  rw [Verdict.accepted?, Verdict.accepted?, h.broken, h.application, h.kept]
  split
  · rfl
  · rw [hresources, hextensions]
    rfl

end Verdict.Forgets

namespace Field

variable {f : Field} {k : Key} {runtime : Properties}

theorem without_effective (f : Field) (k : Key) : (f.without k).effective = f.effective := rfl

theorem without_targets (f : Field) (k : Key) (c : Content) :
    (f.without k).targets c = f.targets c := rfl

theorem without_membersAt (f : Field) (k : Key) (i : Nat) :
    (f.without k).membersAt i = contentWithout k (f.membersAt i) :=
  List.filter_comm ..

theorem judge_of_sublist (hk : k.kind = .resource) (hd : f.Distinct) {a : Stored Application}
    {members : List (Stored Content)} (hm : members.Sublist f.content) :
    (judge runtime a members).Forgets k ((judge runtime a members).without runtime k) :=
  judge_forgets hk ((hm.map _).nodup hd)

theorem otherVerdicts_forgets (hk : k.kind = .resource) (hd : f.Distinct) {v : Verdict}
    (hv : v ∈ f.otherVerdicts runtime) : v.Forgets k (v.without runtime k) := by
  obtain ⟨i, a, -, -, rfl⟩ := mem_otherVerdicts.1 hv
  exact judge_of_sublist hk hd List.filter_sublist

theorem verdicts_forgets (hk : k.kind = .resource) (hd : f.Distinct) {v : Verdict}
    (hv : v ∈ f.verdicts runtime) : v.Forgets k (v.without runtime k) := by
  obtain ⟨i, a, -, rfl⟩ := mem_verdicts.1 hv
  exact judge_of_sublist hk hd (f.tentative_sublist runtime i)

theorem without_otherVerdicts (f : Field) (k : Key) (runtime : Properties) :
    (f.without k).otherVerdicts runtime = (f.otherVerdicts runtime).map (Verdict.without runtime k) := by
  rw [otherVerdicts, otherVerdicts, List.map_filterMap]
  congr 1
  funext x
  obtain ⟨a, i⟩ := x
  simp only [without_effective, without_membersAt]
  split <;> rfl

theorem keeps_without {vs : List Verdict}
    (hvs : ∀ v ∈ vs, v.Forgets k (v.without runtime k)) {key : Key} (hne : key ≠ k) :
    ((vs.map (Verdict.without runtime k)).any fun v => v.keeps key) = vs.any fun v => v.keeps key := by
  rw [List.any_map, Bool.eq_iff_iff, List.any_eq_true, List.any_eq_true]
  refine exists_congr fun v => and_congr_right fun hv => ?_
  rw [Function.comp_apply, (hvs v hv).keeps hne]

theorem without_defaultMembers (hk : k.kind = .resource) (hd : f.Distinct) (i : Nat) :
    (f.without k).defaultMembers i ((f.without k).otherVerdicts runtime) =
      contentWithout k (f.defaultMembers i (f.otherVerdicts runtime)) := by
  have hsame : (f.without k).defaultMembers i ((f.without k).otherVerdicts runtime) =
      (contentWithout k f.content).filter fun c => (f.targets c.record).contains i ||
        f.isHomeless (f.otherVerdicts runtime) c.record := by
    refine List.filter_congr fun c hc => ?_
    have hne : (Record.content c.record).key ≠ k := by
      simpa using (List.mem_filter.1 hc).2
    have hforgets : ∀ v ∈ f.otherVerdicts runtime, v.Forgets k (v.without runtime k) :=
      fun v hv => otherVerdicts_forgets hk hd hv
    have hkeeps := keeps_without hforgets hne
    rw [isHomeless, isHomeless, without_otherVerdicts, hkeeps]
    rfl
  rw [hsame]
  exact List.filter_comm ..

theorem without_verdicts (hk : k.kind = .resource) (hd : f.Distinct) :
    (f.without k).verdicts runtime = (f.verdicts runtime).map (Verdict.without runtime k) := by
  rw [verdicts, verdicts, without_effective]
  cases he : f.effective with
  | none => exact f.without_otherVerdicts k runtime
  | some i =>
    have happs : (f.without k).applications = f.applications := rfl
    simp only [without_defaultMembers hk hd, happs]
    rw [without_otherVerdicts, List.map_append]
    cases f.applications[i]? <;> rfl

theorem without_contentFailure? {vs : List Verdict}
    (hvs : ∀ v ∈ vs, v.Forgets k (v.without runtime k)) {c : Stored Content}
    (hne : (Record.content c.record).key ≠ k) :
    (f.without k).contentFailure? (vs.map (Verdict.without runtime k)) c =
      f.contentFailure? vs c := by
  have hdetached : (vs.map (Verdict.without runtime k)).flatMap Verdict.detached =
      (vs.flatMap Verdict.detached).filter fun d => (Record.content d.1.record).key != k := by
    rw [List.flatMap_map, List.filter_flatMap]
    exact List.flatMap_congr fun v hv => (hvs v hv).detached
  have hfind : ∀ ds : List (Stored Content × Cause),
      (ds.filter fun d => (Record.content d.1.record).key != k).find? (fun d =>
        (Record.content d.1.record).key == (Record.content c.record).key) =
      ds.find? fun d => (Record.content d.1.record).key == (Record.content c.record).key := by
    intro ds
    rw [List.find?_filter]
    congr 1
    funext d
    by_cases hd : (Record.content d.1.record).key = (Record.content c.record).key
    · simp [hd, hne]
    · simp [hd]
  rw [contentFailure?, contentFailure?, without_targets, keeps_without hvs hne, hdetached,
    ← List.filter_reverse, hfind]

theorem without_failures {vs : List Verdict} (hk : k.kind = .resource)
    (hvs : ∀ v ∈ vs, v.Forgets k (v.without runtime k)) :
    (f.without k).failures (vs.map (Verdict.without runtime k)) =
      failuresWithout k (f.failures vs) := by
  have happs : (vs.map (Verdict.without runtime k)).filterMap Verdict.failure? =
      failuresWithout k (vs.filterMap Verdict.failure?) := by
    have hsame : (vs.map (Verdict.without runtime k)).filterMap Verdict.failure? =
        vs.filterMap Verdict.failure? := by
      rw [List.filterMap_map]
      exact List.filterMap_congr fun v hv => (hvs v hv).failure?
    rw [hsame]
    refine (failuresWithout_eq_self fun fl hfl => ?_).symm
    obtain ⟨v, -, hv⟩ := List.mem_filterMap.1 hfl
    obtain ⟨sel, -, rfl⟩ := Option.map_eq_some_iff.1 hv
    rintro rfl
    cases hk
  have hcontent : (f.without k).content.filterMap
      ((f.without k).contentFailure? (vs.map (Verdict.without runtime k))) =
        failuresWithout k (f.content.filterMap (f.contentFailure? vs)) := by
    have hsame : (f.without k).content.filterMap
        ((f.without k).contentFailure? (vs.map (Verdict.without runtime k))) =
          (contentWithout k f.content).filterMap (f.contentFailure? vs) := by
      refine List.filterMap_congr fun c hc => without_contentFailure? hvs ?_
      simpa using (List.mem_filter.1 hc).2
    rw [hsame, contentWithout, List.filterMap_filter, failuresWithout, List.filter_filterMap]
    congr 1
    funext c
    cases hc : f.contentFailure? vs c with
    | none => simp
    | some fl =>
      have hrecord := contentFailure?_record hc
      by_cases hne : (Record.content c.record).key = k <;> simp [Option.filter, hrecord, hne]
  rw [failures, failures, happs, hcontent]
  exact (List.filter_append ..).symm

end Field

theorem allFailures_without {k : Key} {es : List (Stored Record)} {runtime : Properties}
    {f : Field} {vs : List Verdict} (hk : k.kind = .resource)
    (hname : NameOwn k (admitted es runtime))
    (hvs : ∀ v ∈ vs, v.Forgets k (v.without runtime k)) :
    allFailures (without k es) ((pools es runtime).without k) (f.without k)
        (vs.map (Verdict.without runtime k)) =
      failuresWithout k (allFailures es (pools es runtime) f vs) := by
  have hpath : NameOwn k (pools es runtime).afterPath := hname.sublist (afterRule_sublist .path _)
  have hafter : NameOwn k (pools es runtime).afterName := hpath.sublist (afterRule_sublist .name _)
  have hadmitted : NameOwn k (pools es runtime).admitted := hname
  simp only [allFailures, Pools.without, rejected_without, lostTo_without hk hadmitted,
    lostTo_without hk hpath, lostTo_without hk hafter, Field.without_failures hk hvs]
  simp only [failuresWithout, List.filter_append]

end Pass

namespace Reconciler

variable {r : Reconciler} {s : Snapshot} {runtime : Properties} {k : Key}

section Resource

theorem builtin_key_ne (hk : k.kind = .resource) : (Record.application r.builtin).key ≠ k := by
  rintro rfl
  cases hk

theorem pools_isolated (hk : k.kind = .resource)
    (hname : Pass.NameOwn k (Pass.admitted (Pass.candidates r.builtin s) runtime)) (n : Nat) :
    Pass.pools (Pass.candidates r.builtin ⟨n, (s.erase k).entries⟩) runtime =
      (Pass.pools (Pass.candidates r.builtin s) runtime).without k := by
  rw [candidates_without (builtin_key_ne hk)]
  exact Pass.pools_without hk hname

theorem field_isolated (hk : k.kind = .resource)
    (hname : Pass.NameOwn k (Pass.admitted (Pass.candidates r.builtin s) runtime)) (n : Nat) :
    r.field ⟨n, (s.erase k).entries⟩ runtime = (r.field s runtime).without k := by
  rw [field, pools_isolated hk hname]
  exact Pass.ofPool_without hk _

theorem verdicts_isolated (h : s.Keyed) (hk : k.kind = .resource)
    (hname : Pass.NameOwn k (Pass.admitted (Pass.candidates r.builtin s) runtime)) (n : Nat) :
    r.verdicts ⟨n, (s.erase k).entries⟩ runtime =
      (r.verdicts s runtime).map (Pass.Verdict.without runtime k) := by
  rw [verdicts, field_isolated hk hname]
  exact Pass.Field.without_verdicts hk (field_distinct h runtime)

theorem verdicts_forget (h : s.Keyed) (hk : k.kind = .resource) :
    ∀ v ∈ r.verdicts s runtime, v.Forgets k (v.without runtime k) :=
  fun _ hv => Pass.Field.verdicts_forgets hk (field_distinct h runtime) hv

theorem accepted_isolated (h : s.Keyed) (hk : k.kind = .resource)
    (hname : Pass.NameOwn k (Pass.admitted (Pass.candidates r.builtin s) runtime)) (n : Nat) :
    r.accepted ⟨n, (s.erase k).entries⟩ runtime = (r.accepted s runtime).map (Accepted.without k) := by
  rw [accepted, verdicts_isolated h hk hname, List.filterMap_map, accepted, List.map_filterMap]
  exact List.filterMap_congr fun v hv => (verdicts_forget h hk v hv).accepted? hk

theorem reported_isolated (h : s.Keyed) (hk : k.kind = .resource)
    (hname : Pass.NameOwn k (Pass.admitted (Pass.candidates r.builtin s) runtime)) (n : Nat) :
    r.reported ⟨n, (s.erase k).entries⟩ runtime = Pass.failuresWithout k (r.reported s runtime) := by
  rw [reported, field_isolated hk hname, verdicts_isolated h hk hname, pools_isolated hk hname,
    candidates_without (builtin_key_ne hk)]
  exact Pass.allFailures_without hk hname (verdicts_forget h hk)

theorem defaultId?_isolated (hk : k.kind = .resource)
    (hname : Pass.NameOwn k (Pass.admitted (Pass.candidates r.builtin s) runtime)) (n : Nat) :
    r.defaultId? ⟨n, (s.erase k).entries⟩ runtime = r.defaultId? s runtime := by
  rw [defaultId?, field_isolated hk hname]
  rfl

/-- A resource whose name no admitted provider of another id bears concerns nobody else. Without it
a pass deploys the same applications with the same extensions and the same other resources, and the
same other providers fail for the same causes. -/
theorem run_isolates_resource (r : Reconciler) (s : Snapshot) (runtime : Properties) (h : s.Keyed)
    (x : Stored Record) (hx : x ∈ s.entries) (hresource : x.record.kind = .resource)
    (hname : ∀ e ∈ Pass.admitted (Pass.candidates r.builtin s) runtime,
      e.record.name = x.record.name → e.record.id = x.record.id) (n : Nat) :
    (r.run ⟨n, (s.erase x.record.key).entries⟩ runtime).applications =
        (r.run s runtime).applications.map (Accepted.without x.record.key) ∧
      (r.run ⟨n, (s.erase x.record.key).entries⟩ runtime).defaultApplication =
        (r.run s runtime).defaultApplication ∧
      ∀ kind, (r.run ⟨n, (s.erase x.record.key).entries⟩ runtime).failures kind =
        ((r.run s runtime).failures kind).filter fun f => f.record.key != x.record.key := by
  have hown : Pass.NameOwn x.record.key (Pass.admitted (Pass.candidates r.builtin s) runtime) := by
    intro y hy hyk z hz hzy
    obtain rfl : y = x := by
      rcases List.mem_append.1 (Pass.mem_admitted.1 hy).1 with hy | hy
      · exact List.inj_on_of_nodup_map h hy hx hyk
      · obtain rfl := List.mem_singleton.1 hy
        exact absurd hyk (builtin_key_ne hresource)
    exact hname z hz hzy
  have haccepted := accepted_isolated h hresource hown n
  refine ⟨?_, ?_, failures_without (reported_isolated h hresource hown n)⟩
  · rw [applications_eq, applications_eq, haccepted]
    have hbase : ∀ a ∈ r.accepted s runtime, ∀ b ∈ r.accepted s runtime,
        decide (a.base ≤ b.base) =
          decide ((a.without x.record.key).base ≤ (b.without x.record.key).base) :=
      fun _ _ _ _ => rfl
    exact (List.map_mergeSort hbase).symm
  · have hany : ∀ id, ((r.accepted s runtime).map (Accepted.without x.record.key)).any
        (fun a => a.id == id) = (r.accepted s runtime).any fun a => a.id == id := by
      intro id
      rw [List.any_map]
      rfl
    rw [defaultApplication_eq, defaultApplication_eq, haccepted, defaultId?_isolated hresource hown]
    simp only [hany]

end Resource

end Reconciler

namespace Shop

theorem basket_name_own : ∀ e ∈ Pass.admitted (Pass.candidates reconciler.builtin store) .empty,
    e.record.name = basket.name → e.record.id = basket.id := by
  rw [admitted_eq]
  decide +kernel

/-- The shop does not notice whether the basket is there. -/
theorem basket_isolated : store.Keyed ∧ basket.kind = .resource ∧
    (reconciler.run ⟨4, (store.erase basket.key).entries⟩ .empty).applications =
      (reconciler.run store .empty).applications.map (Accepted.without basket.key) := by
  have hkeyed : store.Keyed := store_fits.keyed
  exact ⟨hkeyed, rfl, (Reconciler.run_isolates_resource reconciler store .empty hkeyed ⟨3, basket⟩
    (by decide +kernel) rfl basket_name_own 4).1⟩

end Shop

end Reconciliation
