import Reconciliation.Proofs.Resolution.Dependency
import Reconciliation.Resolution.Pass

/-! # Verdicts

A verdict settles one application with the content attached to it. What the application keeps are
the members that stay, each at its own place.
-/
namespace Reconciliation

namespace Pass

/-- Candidates that are sound, suit the runtime and stand in the order of providers are admitted as
they are. -/
theorem admitted_eq_self {es : List (Stored Record)} {runtime : Properties}
    (hfit : ∀ e ∈ es, (e.record.fault.isNone && e.record.profile.suits runtime) = true)
    (hordered : es.Pairwise fun a b => (a.record.compare b.record).isLE = true) :
    admitted es runtime = es := by
  rw [admitted, List.filter_eq_self.2 hfit]
  exact List.mergeSort_of_pairwise hordered

def siteOf (runtime : Properties) (a : Stored Application) (members : List (Stored Content)) :
    Site :=
  { properties := a.record.profile.properties
    requires := a.record.profile.requires
    members := members.map fun c => memberOf c.record
    runtime }

theorem judge_outcome (runtime : Properties) (a : Stored Application)
    (members : List (Stored Content)) :
    (judge runtime a members).outcome = (siteOf runtime a members).check := rfl

namespace Verdict

def staying (v : Verdict) : List (Stored Content × Nat) :=
  v.members.zipIdx.filter fun p => !v.outcome.isRemoved p.2

theorem remaining_eq (v : Verdict) : v.remaining = v.staying.map Prod.fst := by
  unfold remaining staying
  induction v.members.zipIdx with
  | nil => rfl
  | cons p ps ih =>
    cases h : v.outcome.isRemoved p.2 <;> simp [h, ih]

theorem mem_staying {v : Verdict} {c : Stored Content} {p : Nat} :
    (c, p) ∈ v.staying ↔ v.members[p]? = some c ∧ v.outcome.isRemoved p = false := by
  simp [staying, List.mem_zipIdx_iff_getElem?]

theorem remaining_sublist (v : Verdict) : v.remaining.Sublist v.members := by
  rw [remaining_eq]
  have h : v.staying.Sublist v.members.zipIdx := List.filter_sublist
  simpa using h.map Prod.fst

theorem kept_sublist (v : Verdict) : v.kept.Sublist v.members := by
  unfold kept
  split
  · exact List.nil_sublist _
  · exact v.remaining_sublist

def takenOut (v : Verdict) : List (Stored Content × Cause) :=
  v.outcome.removed.filterMap fun r =>
    v.members[r.1]?.map fun c => (c, .unsatisfiedIn r.2 v.application.record.profile.name)

/-- The other members, as they are let go by an application that is broken. -/
def leftBehind (v : Verdict) : List (Stored Content × Cause) :=
  v.remaining.map fun c =>
    (c, .applicationUnavailable c.record.kind v.application.record.profile.name)

theorem detached_eq (v : Verdict) : v.detached =
    if v.outcome.application.isSome then v.takenOut ++ v.leftBehind else v.takenOut := rfl

theorem mem_members_of_takenOut {v : Verdict} {d : Stored Content × Cause} (h : d ∈ v.takenOut) :
    d.1 ∈ v.members := by
  obtain ⟨r, -, hd⟩ := List.mem_filterMap.1 h
  obtain ⟨c, hc, rfl⟩ := Option.map_eq_some_iff.1 hd
  exact List.mem_of_getElem? hc

theorem mem_members_of_leftBehind {v : Verdict} {d : Stored Content × Cause}
    (h : d ∈ v.leftBehind) : d.1 ∈ v.members := by
  obtain ⟨c, hc, rfl⟩ := List.mem_map.1 h
  exact v.remaining_sublist.subset hc

theorem mem_detached {v : Verdict} {d : Stored Content × Cause} (h : d ∈ v.detached) :
    d ∈ v.takenOut ∨ d ∈ v.leftBehind := by
  rw [detached_eq] at h
  split at h
  · exact List.mem_append.1 h
  · exact Or.inl h

theorem accepted?_eq_some {v : Verdict} {a : Accepted} (h : v.accepted? = some a) :
    v.outcome.application = none ∧ a.application = v.application ∧
      a.resources = v.remaining.filter (fun c => c.record.kind == .resource) ∧
      a.extensions = v.remaining.filter (fun c => c.record.kind == .extension) := by
  unfold accepted? at h
  split at h
  · cases h
  · rename_i hn
    obtain rfl := Option.some.inj h
    exact ⟨by simpa using hn, rfl, by simp [kept, hn], by simp [kept, hn]⟩

end Verdict

namespace Field

/-- What is attached to the application at a place before its requirements are looked at. -/
def tentative (f : Field) (runtime : Properties) (i : Nat) : List (Stored Content) :=
  if f.effective = some i then f.defaultMembers i (f.otherVerdicts runtime) else f.membersAt i

theorem effective_lt {f : Field} {i : Nat} (h : f.effective = some i) :
    i < f.applications.length := by
  rcases Option.or_eq_some_iff.1 h with h | ⟨-, h⟩
  · exact (List.findIdx?_eq_some_iff_getElem.1 h).1
  · exact (List.findIdx?_eq_some_iff_getElem.1 h).1

theorem mem_otherVerdicts {f : Field} {runtime : Properties} {v : Verdict} :
    v ∈ f.otherVerdicts runtime ↔ ∃ i a, f.applications[i]? = some a ∧ f.effective ≠ some i ∧
      v = judge runtime a (f.membersAt i) := by
  simp only [otherVerdicts, List.mem_filterMap, Prod.exists, List.mem_zipIdx_iff_getElem?,
    beq_iff_eq]
  constructor
  · rintro ⟨a, i, ha, h⟩
    split at h
    · cases h
    · rename_i hn
      exact ⟨i, a, ha, hn, (Option.some.inj h).symm⟩
  · rintro ⟨i, a, ha, hn, rfl⟩
    exact ⟨a, i, ha, if_neg hn⟩

theorem mem_verdicts {f : Field} {runtime : Properties} {v : Verdict} :
    v ∈ f.verdicts runtime ↔
      ∃ i a, f.applications[i]? = some a ∧ v = judge runtime a (f.tentative runtime i) := by
  have hother : v ∈ f.otherVerdicts runtime ↔ ∃ i a, f.applications[i]? = some a ∧
      f.effective ≠ some i ∧ v = judge runtime a (f.tentative runtime i) := by
    rw [mem_otherVerdicts]
    constructor
    · rintro ⟨i, a, ha, hn, rfl⟩
      exact ⟨i, a, ha, hn, by rw [tentative, if_neg hn]⟩
    · rintro ⟨i, a, ha, hn, rfl⟩
      exact ⟨i, a, ha, hn, by rw [tentative, if_neg hn]⟩
  unfold verdicts
  cases he : f.effective with
  | none =>
    simp only [hother, he]
    constructor
    · rintro ⟨i, a, ha, -, hv⟩
      exact ⟨i, a, ha, hv⟩
    · rintro ⟨i, a, ha, hv⟩
      exact ⟨i, a, ha, by simp, hv⟩
  | some e =>
    simp only [List.mem_append, hother, Option.mem_toList, Option.map_eq_some_iff, he]
    constructor
    · rintro (⟨i, a, ha, -, hv⟩ | ⟨a, ha, rfl⟩)
      · exact ⟨i, a, ha, hv⟩
      · exact ⟨e, a, ha, by rw [tentative, if_pos he]⟩
    · rintro ⟨i, a, ha, hv⟩
      by_cases hi : e = i
      · subst hi
        rw [tentative, if_pos he] at hv
        exact Or.inr ⟨a, ha, hv.symm⟩
      · exact Or.inl ⟨i, a, ha, by simpa using hi, hv⟩

end Field

end Pass

namespace Accepted

/-- A selector is met by the application, by the runtime, or by an extension that is listed at
another place than `self`. -/
def Meets (a : Accepted) (runtime : Properties) (self : Option Nat) (sel : Selector) : Prop :=
  sel.accepts a.application.record.profile.properties = true ∨ sel.accepts runtime = true ∨
    ∃ i e, a.extensions[i]? = some e ∧ some i ≠ self ∧
      sel.accepts e.record.profile.properties = true

/-- Whatever the application and its content require is there. An extension is never counted for
itself; extensions are told apart by their place in the list. -/
structure DependencyClosed (a : Accepted) (runtime : Properties) : Prop where
  application : ∀ sel ∈ a.application.record.profile.requires, a.Meets runtime none sel
  resources : ∀ c ∈ a.resources, ∀ sel ∈ c.record.profile.requires, a.Meets runtime none sel
  extensions : ∀ i c, a.extensions[i]? = some c →
    ∀ sel ∈ c.record.profile.requires, a.Meets runtime (some i) sel

end Accepted

namespace Pass

namespace Verdict

def stayingExtensions (v : Verdict) : List (Stored Content × Nat) :=
  v.staying.filter fun p => p.1.record.kind == .extension

theorem extensions_eq {v : Verdict} {a : Accepted} (h : v.accepted? = some a) :
    a.extensions = v.stayingExtensions.map Prod.fst := by
  rw [(accepted?_eq_some h).2.2.2, remaining_eq, List.filter_map]
  rfl

theorem mem_stayingExtensions {v : Verdict} {c : Stored Content} {p : Nat} :
    (c, p) ∈ v.stayingExtensions ↔
      v.members[p]? = some c ∧ v.outcome.isRemoved p = false ∧ c.record.kind = .extension := by
  simp [stayingExtensions, mem_staying, and_assoc]

end Verdict

section Closed

variable {runtime : Properties} {app : Stored Application} {members : List (Stored Content)}
  {a : Accepted}

theorem siteOf_getElem? {i : Nat} {m : Member} :
    (siteOf runtime app members).members[i]? = some m ↔
      ∃ c, members[i]? = some c ∧ memberOf c.record = m := by
  simp [siteOf]

/-- A member that stays and meets a requirement of a node is listed among the extensions, at another
place than the node if that is an extension itself. -/
theorem accepted_meets (ha : (judge runtime app members).accepted? = some a) {node : Nat}
    {sel : Selector} {self : Option Nat}
    (hself : ∀ i, self = some i →
      ∃ c p, node = p + 1 ∧ (judge runtime app members).stayingExtensions[i]? = some (c, p))
    (h : (siteOf runtime app members).Meets ((siteOf runtime app members).survivors
      (judge runtime app members).outcome) node sel) : a.Meets runtime self sel := by
  have happ : a.application = app := (Verdict.accepted?_eq_some ha).2.1
  unfold Accepted.Meets
  rw [happ, Verdict.extensions_eq ha]
  rcases h with h | ⟨q, hq, m, hm, hk, hn, hacc⟩
  · rw [metByContext, Bool.or_eq_true] at h
    exact h.elim Or.inl (fun h => Or.inr (Or.inl h))
  · obtain ⟨e, he, rfl⟩ := siteOf_getElem?.1 hm
    have hstay : (e, q) ∈ (judge runtime app members).stayingExtensions :=
      Verdict.mem_stayingExtensions.2 ⟨he, hq.2, hk⟩
    obtain ⟨j, hj⟩ := List.mem_iff_getElem?.1 hstay
    refine Or.inr (Or.inr ⟨j, e, by simp [hj], ?_, hacc⟩)
    intro hjs
    obtain ⟨c, p, rfl, hp⟩ := hself j hjs.symm
    rw [hj] at hp
    exact hn (congrArg (·.2 + 1) (Option.some.inj hp))

theorem judge_dependencyClosed (ha : (judge runtime app members).accepted? = some a) :
    a.DependencyClosed runtime := by
  have hset := (siteOf runtime app members).check_settled
  obtain ⟨hnone, happ, hres, -⟩ := Verdict.accepted?_eq_some ha
  have hmember : ∀ p c, (c, p) ∈ (judge runtime app members).staying →
      ∀ sel ∈ c.record.profile.requires, (siteOf runtime app members).Meets
        ((siteOf runtime app members).survivors (judge runtime app members).outcome)
        (p + 1) sel := by
    intro p c hc sel hs
    obtain ⟨hp, hr⟩ := Verdict.mem_staying.1 hc
    have hm : (siteOf runtime app members).members[p]? = some (memberOf c.record) :=
      siteOf_getElem?.2 ⟨c, hp, rfl⟩
    have hlt := (List.getElem?_eq_some_iff.1 hm).1
    obtain ⟨m, hm', hreq⟩ := hset.greatest.1 p ⟨hlt, hr⟩
    obtain rfl := Option.some.inj (hm.symm.trans hm')
    exact hreq sel hs
  constructor
  · intro sel hs
    rw [happ] at hs
    have hmet : (siteOf runtime app members).Meets ((siteOf runtime app members).survivors
        (judge runtime app members).outcome) 0 sel := by
      by_contra hm
      have hb := hset.application_broken.2 ⟨sel, hs, hm⟩
      rw [judge_outcome] at hnone
      simp [hnone] at hb
    exact accepted_meets ha (fun i hi => by cases hi) hmet
  · intro c hc sel hs
    rw [hres, Verdict.remaining_eq] at hc
    obtain ⟨⟨c, p⟩, hp, rfl⟩ := List.mem_map.1 (List.mem_filter.1 hc).1
    exact accepted_meets ha (fun i hi => by cases hi) (hmember p c hp sel hs)
  · intro i c hc sel hs
    rw [Verdict.extensions_eq ha, List.getElem?_map] at hc
    obtain ⟨⟨c, p⟩, hp, rfl⟩ := Option.map_eq_some_iff.1 hc
    have hstay := (List.mem_filter.1 (List.mem_of_getElem? hp)).1
    refine accepted_meets ha ?_ (hmember p c hstay sel hs)
    rintro j ⟨rfl⟩
    exact ⟨c, p, rfl, hp⟩

end Closed

end Pass

namespace Reconciler

def field (r : Reconciler) (s : Snapshot) (runtime : Properties) : Pass.Field :=
  .ofPool (Pass.pools (Pass.candidates r.builtin s) runtime).afterDefault

def verdicts (r : Reconciler) (s : Snapshot) (runtime : Properties) : List Pass.Verdict :=
  (r.field s runtime).verdicts runtime

theorem verdicts_eq_judge (r : Reconciler) (s : Snapshot) (runtime : Properties) :
    r.verdicts s runtime = ((r.verdicts s runtime).map fun v => (v.application, v.members)).map
      fun p => Pass.judge runtime p.1 p.2 := by
  rw [List.map_map]
  conv_lhs => rw [← List.map_id (r.verdicts s runtime)]
  refine List.map_congr_left fun v hv => ?_
  obtain ⟨i, a, -, rfl⟩ := Pass.Field.mem_verdicts.1 hv
  rfl

theorem mem_applications {r : Reconciler} {s : Snapshot} {runtime : Properties} {a : Accepted} :
    a ∈ (r.run s runtime).applications ↔ ∃ v ∈ r.verdicts s runtime, v.accepted? = some a :=
  List.mem_mergeSort.trans List.mem_filterMap

/-- Nothing is deployed without what it requires. -/
theorem run_dependency_closed (r : Reconciler) (s : Snapshot) (runtime : Properties) :
    ∀ a ∈ (r.run s runtime).applications, a.DependencyClosed runtime := by
  intro a h
  obtain ⟨v, hv, ha⟩ := mem_applications.1 h
  obtain ⟨i, app, -, rfl⟩ := Pass.Field.mem_verdicts.1 hv
  exact Pass.judge_dependencyClosed ha

end Reconciler

namespace Shop

def reconciler : Reconciler := ⟨.builtin (.generated 0)⟩

def shop : Record :=
  .ofProperties .application (.registered 1)
    (.ofList [(Keys.name, .text "shop"), (Keys.applicationBase, .text "/shop")]) none

def logging : Record :=
  .ofProperties .extension (.registered 2)
    (.ofList [(Keys.name, .text "log"), (Keys.objectClass, .list ["Feature"])]) none

def basket : Record :=
  .ofProperties .resource (.registered 3)
    (.ofList [(Keys.name, .text "basket"), (Keys.extensionSelect, .text "(whiteboard.name=log)")])
    none

def store : Snapshot := ⟨3, [⟨1, shop⟩, ⟨2, logging⟩, ⟨3, basket⟩]⟩

/-- All candidates are sound, suit any runtime, and stand in the order of providers. -/
theorem admitted_eq : Pass.admitted (Pass.candidates reconciler.builtin store) .empty =
    Pass.candidates reconciler.builtin store :=
  Pass.admitted_eq_self (by decide +kernel) (by decide +kernel)

/-- The shop is deployed with the basket and the extension that it requires. -/
theorem shop_deployed_closed : ∃ a ∈ (reconciler.run store .empty).applications,
    a.resources.map (fun c => c.record.profile.name) = ["basket"] ∧
      a.extensions.map (fun c => c.record.profile.name) = ["log"] ∧
      a.DependencyClosed .empty := by
  have hv : ∃ v ∈ reconciler.verdicts store .empty, ∃ a ∈ v.accepted?,
      a.resources.map (fun c => c.record.profile.name) = ["basket"] ∧
        a.extensions.map (fun c => c.record.profile.name) = ["log"] := by
    rw [Reconciler.verdicts, Reconciler.field, Pass.pools, admitted_eq]
    decide +kernel
  obtain ⟨v, hv, a, ha, hr, he⟩ := hv
  have hm := Reconciler.mem_applications.2 ⟨v, hv, ha⟩
  exact ⟨a, hm, hr, he, Reconciler.run_dependency_closed reconciler store .empty a hm⟩

end Shop

end Reconciliation
