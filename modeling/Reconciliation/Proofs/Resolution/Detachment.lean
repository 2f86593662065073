import Reconciliation.Proofs.Resolution.Attachment
import Reconciliation.Proofs.Resolution.Reporting

/-! # The last application to let content go

What is reported of content that nobody keeps is what the last application to have it says: that a
requirement of the content is broken there, or else that the application itself is.
-/
namespace Reconciliation

namespace Pass

namespace Verdict

variable {v : Verdict} {runtime : Properties} {c : Stored Content}

/-- The member that is there requires what nobody who stays with the application can meet. -/
def Lacks (v : Verdict) (runtime : Properties) (c : Stored Content) (sel : Selector) : Prop :=
  ∃ place, v.members[place]? = some c ∧ sel ∈ c.record.profile.requires ∧
    ¬ (siteOf runtime v.application v.members).Meets
      ((siteOf runtime v.application v.members).survivors v.outcome) (place + 1) sel

def desertion : ContentKind → Reason
  | .resource => .requiredApplicationUnavailable
  | .extension => .requiredExtensionsUnavailable

/-- What an application says of a member that it lets go, as a reason and its detail. -/
inductive Releases (v : Verdict) (runtime : Properties) (c : Stored Content) :
    Reason → String → Prop where
  | broken {sel : Selector} (lacks : v.Lacks runtime c sel) :
    v.Releases runtime c .requiredExtensionsUnavailable
      s!"unsatisfied {sel.source} in application '{v.application.record.profile.name}'"
  | deserted (lacks_nothing : ∀ sel, ¬ v.Lacks runtime c sel) (failed : v.failure?.isSome = true) :
    v.Releases runtime c (desertion c.record.kind)
      s!"application '{v.application.record.profile.name}' is unavailable"

section Settled

variable (hv : v.outcome = (siteOf runtime v.application v.members).check)
include hv

theorem lacks_of_removed {place : Nat} {sel : Selector} (hr : (place, sel) ∈ v.outcome.removed)
    (hc : v.members[place]? = some c) : v.Lacks runtime c sel := by
  have hset := (siteOf runtime v.application v.members).check_settled
  rw [← hv] at hset
  obtain ⟨m, hm, hsel, hnot⟩ := hset.member_cause place sel hr
  obtain ⟨c', hc', rfl⟩ := siteOf_getElem?.1 hm
  obtain rfl := Option.some.inj (hc.symm.trans hc')
  exact ⟨place, hc, hsel, hnot⟩

theorem not_lacks_of_remaining (hn : v.members.Nodup) (hc : c ∈ v.remaining) (sel : Selector) :
    ¬ v.Lacks runtime c sel := by
  have hset := (siteOf runtime v.application v.members).check_settled
  rw [← hv] at hset
  obtain ⟨place, hplace, hleft⟩ : ∃ place, v.members[place]? = some c ∧
      v.outcome.isRemoved place = false := by
    rw [remaining_eq] at hc
    obtain ⟨⟨_, place⟩, hstay, rfl⟩ := List.mem_map.1 hc
    exact ⟨place, mem_staying.1 hstay⟩
  rintro ⟨place', hplace', hsel, hnot⟩
  obtain rfl : place = place' := (List.getElem?_inj (List.getElem?_eq_some_iff.1 hplace).1 hn).1
    (hplace.trans hplace'.symm)
  have hm : (siteOf runtime v.application v.members).members[place]? = some (memberOf c.record) :=
    siteOf_getElem?.2 ⟨c, hplace, rfl⟩
  have hsurvives : place ∈ (siteOf runtime v.application v.members).survivors v.outcome :=
    ⟨(List.getElem?_eq_some_iff.1 hm).1, hleft⟩
  obtain ⟨m, hm', hmet⟩ := hset.greatest.1 place hsurvives
  obtain rfl := Option.some.inj (hm.symm.trans hm')
  exact hnot (hmet sel hsel)

theorem releases_of_detached (hn : v.members.Nodup) {cause : Cause} (h : (c, cause) ∈ v.detached) :
    v.Releases runtime c cause.reason cause.detail := by
  rw [detached_eq] at h
  have htaken : (c, cause) ∈ v.takenOut → v.Releases runtime c cause.reason cause.detail := by
    intro h
    obtain ⟨⟨place, sel⟩, hr, hc⟩ := List.mem_filterMap.1 h
    obtain ⟨_, hplace, he⟩ := Option.map_eq_some_iff.1 hc
    cases he
    exact .broken (lacks_of_removed hv hr hplace)
  split at h
  · rename_i hfailed
    rcases List.mem_append.1 h with h | h
    · exact htaken h
    · obtain ⟨_, hc, he⟩ := List.mem_map.1 h
      cases he
      have hdeserted := Releases.deserted (not_lacks_of_remaining hv hn hc)
        (by simpa [failure?] using hfailed)
      have hreason : ∀ (kind : ContentKind) (name : String),
          (Cause.applicationUnavailable kind name).reason = desertion kind := by
        rintro (_ | _) name <;> rfl
      rw [hreason]
      exact hdeserted
  · exact htaken h

end Settled

theorem mem_members_of_detached {d : Stored Content × Cause} (h : d ∈ v.detached) :
    d.1 ∈ v.members :=
  (mem_detached h).elim mem_members_of_takenOut mem_members_of_leftBehind

end Verdict

def IsLastHost (vs : List Verdict) (c : Stored Content) (v : Verdict) : Prop :=
  ∃ before after, vs = before ++ v :: after ∧ c ∈ v.members ∧ ∀ w ∈ after, c ∉ w.members

theorem exists_lastHost {vs : List Verdict} {c : Stored Content} (h : ∃ v ∈ vs, c ∈ v.members) :
    ∃ v, IsLastHost vs c v := by
  induction vs using List.reverseRecOn with
  | nil => simp at h
  | append_singleton vs w ih =>
    by_cases hw : c ∈ w.members
    · exact ⟨w, vs, [], rfl, hw, by simp⟩
    · obtain ⟨v, hv, hc⟩ := h
      have hmem : v ∈ vs := by
        rcases List.mem_append.1 hv with hv | hv
        · exact hv
        · obtain rfl := List.mem_singleton.1 hv
          exact absurd hc hw
      obtain ⟨u, before, after, rfl, hu, hlater⟩ := ih ⟨v, hmem, hc⟩
      refine ⟨u, before, after ++ [w], by simp, hu, ?_⟩
      simpa [or_imp, forall_and] using ⟨hlater, hw⟩

theorem IsLastHost.mem {vs : List Verdict} {c : Stored Content} {v : Verdict}
    (h : IsLastHost vs c v) : v ∈ vs := by
  obtain ⟨before, after, rfl, -, -⟩ := h
  exact List.mem_append_right _ List.mem_cons_self

namespace Field

variable {f : Field} {runtime : Properties} {c : Stored Content} {v : Verdict}

theorem members_sublist (hv : v ∈ f.verdicts runtime) : v.members.Sublist f.content := by
  obtain ⟨i, a, -, rfl⟩ := mem_verdicts.1 hv
  exact f.tentative_sublist runtime i

theorem members_nodup (hd : f.Distinct) (hv : v ∈ f.verdicts runtime) : v.members.Nodup :=
  (members_sublist hv).nodup (List.Nodup.of_map _ hd)

theorem eq_of_member_key (hd : f.Distinct) (hc : c ∈ f.content) (hv : v ∈ f.verdicts runtime)
    {d : Stored Content} (hm : d ∈ v.members)
    (hk : (Record.content d.record).key = (Record.content c.record).key) : d = c :=
  List.inj_on_of_nodup_map hd ((members_sublist hv).subset hm) hc hk

theorem targets_ne_nil_of_member (hv : v ∈ f.verdicts runtime) (hc : c ∈ v.members) :
    f.targets c.record ≠ [] := by
  obtain ⟨i, a, -, rfl⟩ := mem_verdicts.1 hv
  exact targets_ne_nil_of_tentative hc

/-- Of content that was attached somewhere and that nobody keeps, the failure has the cause with
which the last host let it go. -/
theorem contentFailure?_of_lastHost (hd : f.Distinct)
    (hlast : IsLastHost (f.verdicts runtime) c v) (hn : ∀ w ∈ f.verdicts runtime, c ∉ w.kept) :
    ∃ cause, (c, cause) ∈ v.detached ∧
      f.contentFailure? (f.verdicts runtime) c = some ⟨.content c.record, cause⟩ := by
  have hv := hlast.mem
  obtain ⟨before, after, hvs, hm, hlater⟩ := hlast
  have hc : c ∈ f.content := (members_sublist hv).subset hm
  have hunkept : ((f.verdicts runtime).any fun w => w.keeps (Record.content c.record).key) =
      false := by
    rw [List.any_eq_false]
    exact fun w hw hk => hn w hw ((keeps_of_content hd hc hw).1 hk)
  -- From the end of the log, no later verdict tells of the content, and the last host does.
  have hafter : ((after.flatMap Verdict.detached).reverse.find? fun d =>
      (Record.content d.1.record).key == (Record.content c.record).key) = none := by
    rw [List.find?_eq_none]
    intro d hdm hk
    obtain ⟨w, hw, hdw⟩ := List.mem_flatMap.1 (List.mem_reverse.1 hdm)
    have hmem := Verdict.mem_members_of_detached hdw
    have hwv : w ∈ f.verdicts runtime := by simp [hvs, hw]
    rw [eq_of_member_key hd hc hwv hmem (beq_iff_eq.1 hk)] at hmem
    exact hlater w hw hmem
  obtain ⟨cause, hcause⟩ := (Verdict.kept_or_detached hm).resolve_left (hn v hv)
  obtain ⟨⟨c', cause'⟩, hfind⟩ : ∃ d, (v.detached.reverse.find? fun d =>
      (Record.content d.1.record).key == (Record.content c.record).key) = some d :=
    Option.isSome_iff_exists.1 (List.find?_isSome.2 ⟨_, List.mem_reverse.2 hcause, by simp⟩)
  have hmem : (c', cause') ∈ v.detached := List.mem_reverse.1 (List.mem_of_find?_eq_some hfind)
  have hkey : (Record.content c'.record).key = (Record.content c.record).key := by
    simpa using List.find?_some hfind
  obtain rfl := eq_of_member_key hd hc hv (Verdict.mem_members_of_detached hmem) hkey
  refine ⟨cause', hmem, ?_⟩
  have hlog : (((f.verdicts runtime).flatMap Verdict.detached).reverse.find? fun d =>
      (Record.content d.1.record).key == (Record.content c'.record).key) = some (c', cause') := by
    rw [hvs, List.flatMap_append, List.flatMap_cons, List.reverse_append, List.reverse_append,
      List.append_assoc, List.find?_append, hafter, List.find?_append, hfind]
    rfl
  have htargets : (f.targets c'.record).isEmpty = false := by
    simpa using targets_ne_nil_of_member hv hm
  simp [contentFailure?, htargets, hunkept, hlog]

theorem exists_lastHost_of_failure (hd : f.Distinct) (hc : c ∈ f.content)
    (ht : f.targets c.record ≠ []) {fl : Failure}
    (h : f.contentFailure? (f.verdicts runtime) c = some fl) :
    ∃ host, IsLastHost (f.verdicts runtime) c host ∧ (c, fl.cause) ∈ host.detached := by
  have hn : ∀ w ∈ f.verdicts runtime, c ∉ w.kept := by
    have hsome := (congrArg Option.isSome h).symm.trans (contentFailure?_isSome hd hc)
    rw [Option.isSome_some, Bool.true_eq, Bool.not_eq_true', List.any_eq_false] at hsome
    exact fun w hw hk => hsome w hw ((keeps_of_content hd hc hw).2 hk)
  obtain ⟨i, hi⟩ := List.exists_mem_of_ne_nil _ ht
  obtain ⟨a, ha⟩ := getElem?_of_mem_targets hi
  obtain ⟨host, hlast⟩ := exists_lastHost (c := c) ⟨judge runtime a (f.tentative runtime i),
    mem_verdicts.2 ⟨i, a, ha, rfl⟩, mem_tentative_of_mem_targets hc hi⟩
  obtain ⟨cause, hcause, hfailure⟩ := contentFailure?_of_lastHost hd hlast hn
  obtain rfl := Option.some.inj (h.symm.trans hfailure)
  exact ⟨host, hlast, hcause⟩

theorem not_actsAsDefault_of_other (h : f.Contested) (hv : v ∈ f.otherVerdicts runtime) :
    ¬ f.ActsAsDefault v.application := by
  obtain ⟨i, a, ha, hi, rfl⟩ := mem_otherVerdicts.1 hv
  exact fun hd => hi ((h.effective_iff ha).2 hd)

/-- Verdicts follow the applications, but for the one on the default, which comes last. -/
theorem verdicts_pairwise (h : f.Contested) {R : Stored Application → Stored Application → Prop}
    (hR : f.applications.Pairwise R) :
    (f.verdicts runtime).Pairwise fun v w => ¬ f.ActsAsDefault v.application ∧
      (f.ActsAsDefault w.application ∨ R v.application w.application) := by
  have hothers : (f.otherVerdicts runtime).Pairwise fun v w => ¬ f.ActsAsDefault v.application ∧
      (f.ActsAsDefault w.application ∨ R v.application w.application) := by
    have hsub : ((f.otherVerdicts runtime).map Verdict.application).Sublist f.applications := by
      have hall : f.applications.zipIdx.map Prod.fst = f.applications := List.zipIdx_map_fst 0 _
      rw [otherVerdicts_map_application]
      conv_rhs => rw [← hall]
      exact List.filter_sublist.map _
    exact (List.pairwise_map.1 (hR.sublist hsub)).imp_of_mem fun hv _ hvw =>
      ⟨not_actsAsDefault_of_other h hv, Or.inr hvw⟩
  unfold verdicts
  cases he : f.effective with
  | none => exact hothers
  | some i =>
    refine List.pairwise_append.2 ⟨hothers, ?_, ?_⟩
    · cases f.applications[i]? <;> simp
    · intro v hv w hw
      obtain ⟨a, ha, rfl⟩ := Option.map_eq_some_iff.1 (Option.mem_toList.1 hw)
      exact ⟨not_actsAsDefault_of_other h hv, Or.inl (actsAsDefault_of_effective he ha)⟩

end Field

end Pass

namespace Reconciler

structure ReportsLastDetachment (r : Reconciler) (s : Snapshot) (runtime : Properties) : Prop where
  /-- Each surviving application is settled once. -/
  settled : ((r.verdicts s runtime).map Pass.Verdict.application).Perm
    (r.field s runtime).applications
  /-- This is done in the order of providers, but the effective default is settled last. -/
  ordered : (r.verdicts s runtime).Pairwise fun v w =>
    ¬ (r.field s runtime).ActsAsDefault v.application ∧
      ((r.field s runtime).ActsAsDefault w.application ∨
        (v.application.record.profile.compare w.application.record.profile).isLE = true)
  /-- A failure of content that was attached somewhere is told by the last host. -/
  told : ∀ v ∈ r.verdicts s runtime, ∀ c ∈ v.members, ∀ kind,
    ∀ f ∈ (r.run s runtime).failures kind, f.record.key = (Record.content c.record).key →
      f.record = .content c.record ∧ ∃ host, Pass.IsLastHost (r.verdicts s runtime) c host ∧
        host.Releases runtime c f.cause.reason f.cause.detail
  /-- Content that was attached somewhere and that nobody keeps has a failure. -/
  reported : ∀ v ∈ r.verdicts s runtime, ∀ c ∈ v.members,
    (∀ a ∈ (r.run s runtime).applications, c ∉ a.content) →
      (Record.content c.record).key ∈ (r.run s runtime).failedKeys c.record.kind.kind
  /-- Content of an accepted application has none. -/
  kept : ∀ a ∈ (r.run s runtime).applications, ∀ c ∈ a.content, ∀ kind,
    (Record.content c.record).key ∉ (r.run s runtime).failedKeys kind

variable {r : Reconciler} {s : Snapshot} {runtime : Properties} {c : Stored Content}

theorem applications_pairwise (r : Reconciler) (s : Snapshot) (runtime : Properties) :
    (r.field s runtime).applications.Pairwise fun a b =>
      (a.record.profile.compare b.record.profile).isLE = true := by
  have hpool := (Pass.admitted_pairwise (Pass.candidates r.builtin s) runtime).sublist
    (Pass.afterDefault_sublist_admitted (Pass.candidates r.builtin s) runtime)
  refine hpool.filterMap _ ?_
  rintro ⟨n, x⟩ ⟨m, y⟩ hxy a ha b hb
  cases x <;> cases ha
  cases y <;> cases hb
  simpa [Record.compare, Record.profile, Record.kind] using hxy

theorem content_not_sharesBuiltin (c : Content) : ¬ r.SharesBuiltin s (Record.content c).key := by
  rintro ⟨hk, -⟩
  have hkind : c.kind.kind = .application := congrArg Key.kind hk
  cases hc : c.kind <;> simp [hc, ContentKind.kind] at hkind

theorem reported_add_placed_le (h : s.Keyed) (runtime : Properties) (c : Content) :
    ((r.reported s runtime).map fun f => f.record.key).count (Record.content c).key +
      ((r.placed s runtime).map fun d => (Record.content d.record).key).count
        (Record.content c).key ≤ 1 := by
  have hperm := ((conserves_of_distinct (field_distinct (r := r) h runtime)).map
    Record.key).count_eq (Record.content c).key
  simp only [List.map_append, List.map_map, List.count_append] at hperm
  have hall := candidates_count_le (r := r) h (content_not_sharesBuiltin c)
  simp only [Function.comp_def] at hperm
  omega

theorem mem_placed_of_content {a : Accepted} (h : s.Keyed)
    (ha : a ∈ (r.run s runtime).applications) (hc : c ∈ a.content) :
    c ∈ r.placed s runtime := by
  obtain ⟨v, hv, hva⟩ := mem_applications.1 ha
  have hkept := (Pass.Verdict.content_perm_kept hva).mem_iff.1 hc
  have hcf := (Pass.Field.kept_sublist_content hv).subset hkept
  exact List.mem_filter.2 ⟨hcf, List.any_eq_true.2
    ⟨v, hv, (Pass.Field.keeps_of_content (field_distinct h runtime) hcf hv).2 hkept⟩⟩

theorem not_reported_of_content {a : Accepted} (h : s.Keyed)
    (ha : a ∈ (r.run s runtime).applications) (hc : c ∈ a.content) {f : Failure}
    (hf : f ∈ r.reported s runtime) : f.record.key ≠ (Record.content c.record).key := by
  intro hk
  have hplaced : 0 < ((r.placed s runtime).map fun d => (Record.content d.record).key).count
      (Record.content c.record).key :=
    List.count_pos_iff.2 (List.mem_map_of_mem (mem_placed_of_content h ha hc))
  have hreported : 0 < ((r.reported s runtime).map fun f => f.record.key).count
      (Record.content c.record).key :=
    List.count_pos_iff.2 (List.mem_map.2 ⟨f, hf, hk⟩)
  have hle := reported_add_placed_le (r := r) h runtime c.record
  omega

theorem releases_of_detached (h : s.Keyed) {v : Pass.Verdict} (hv : v ∈ r.verdicts s runtime)
    {cause : Cause} (hc : (c, cause) ∈ v.detached) :
    v.Releases runtime c cause.reason cause.detail := by
  have hchecked : v.outcome = (Pass.siteOf runtime v.application v.members).check := by
    obtain ⟨i, a, -, rfl⟩ := Pass.Field.mem_verdicts.1 hv
    rfl
  exact Pass.Verdict.releases_of_detached hchecked
    (Pass.Field.members_nodup (field_distinct h runtime) hv) hc

/-- What the last host says of content that nobody keeps is met as a failure. -/
theorem exists_reported_of_unkept (h : s.Keyed) {v : Pass.Verdict} (hv : v ∈ r.verdicts s runtime)
    (hc : c ∈ v.members) (hn : ∀ a ∈ (r.run s runtime).applications, c ∉ a.content) :
    ∃ host cause, Pass.IsLastHost (r.verdicts s runtime) c host ∧
      host.Releases runtime c cause.reason cause.detail ∧
        ⟨.content c.record, cause⟩ ∈ r.reported s runtime := by
  have hd := field_distinct (r := r) h runtime
  obtain ⟨host, hlast⟩ := Pass.exists_lastHost ⟨v, hv, hc⟩
  have hunkept : ∀ w ∈ r.verdicts s runtime, c ∉ w.kept := by
    intro w hw hk
    obtain ⟨a, ha⟩ := Pass.Verdict.exists_accepted_of_kept hk
    exact hn a (mem_applications.2 ⟨w, hw, ha⟩) ((Pass.Verdict.content_perm_kept ha).mem_iff.2 hk)
  obtain ⟨cause, hcause, hfailure⟩ := Pass.Field.contentFailure?_of_lastHost hd hlast hunkept
  refine ⟨host, cause, hlast, releases_of_detached h hlast.mem hcause, ?_⟩
  refine List.mem_append_right _ (List.mem_append_right _ (List.mem_filterMap.2 ⟨c, ?_, hfailure⟩))
  exact (Pass.Field.members_sublist hv).subset hc

/-- The reported reason for content that was let go is that of its last host, in every pass. -/
theorem run_reports_last_detachment (r : Reconciler) {s : Snapshot} (h : s.Keyed)
    (runtime : Properties) : r.ReportsLastDetachment s runtime where
  settled := (r.field s runtime).verdicts_applications runtime
  ordered := Pass.Field.verdicts_pairwise (r.field_contested s runtime)
    (applications_pairwise r s runtime)
  told := by
    intro v hv c hc kind f hf hk
    have hfr := mem_reported_of_failures hf
    have hn : ∀ a ∈ (r.run s runtime).applications, c ∉ a.content :=
      fun a ha hca => not_reported_of_content h ha hca hfr hk
    obtain ⟨host, cause, hlast, hreleases, hmet⟩ := exists_reported_of_unkept h hv hc hn
    have hone := filter_eq_singleton (g := fun f : Failure => f.record.key) hmet
      (reported_count_le h runtime (content_not_sharesBuiltin c.record))
    have hmem : f ∈ (r.reported s runtime).filter
        fun g => g.record.key == (Record.content c.record).key :=
      List.mem_filter.2 ⟨hfr, by simpa using hk⟩
    rw [hone] at hmem
    obtain rfl := List.mem_singleton.1 hmem
    exact ⟨rfl, host, hlast, hreleases⟩
  reported := by
    intro v hv c hc hn
    obtain ⟨host, cause, -, -, hmet⟩ := exists_reported_of_unkept h hv hc hn
    have hunder := failures_under_of_reported h hmet (content_not_sharesBuiltin c.record)
    have hmem : Failure.mk (.content c.record) cause ∈
        ((r.run s runtime).failures (Record.content c.record).kind).filter
          fun g => g.record.key == (Record.content c.record).key := by
      rw [hunder]
      exact List.mem_singleton_self _
    exact List.mem_map.2 ⟨_, (List.mem_filter.1 hmem).1, rfl⟩
  kept := by
    intro a ha c hc kind hk
    obtain ⟨f, hf, hkey⟩ := List.mem_map.1 hk
    exact not_reported_of_content h ha hc (mem_reported_of_failures hf) hkey

end Reconciler

theorem Graph.resolve_pair {g : Graph} (application member : Option Selector)
    (hsize : g.requirements.length = 2) (hidle : g.dependents 0 = [] ∧ g.dependents 1 = [])
    (happlication : g.firstBroken 0 [0, 1] = application)
    (hmember : g.firstBroken 1 [0, 1] = member ∧ g.firstBroken 1 [1] = member) :
    g.resolve = ⟨application, member.toList.map fun sel => (0, sel)⟩ := by
  cases application <;> cases member <;>
    simp [resolve, hsize, List.range, List.range.loop, settle, hidle, happlication, hmember,
      Outcome.intact, Outcome.add]

namespace Shop

def plaza : Application :=
  .ofProperties (.registered 10)
    (.ofList [(Keys.name, .text "plaza"), (Keys.applicationBase, .text "/plaza"),
      (Keys.serviceRanking, .integer 10), ("roofed", .text "yes"),
      (Keys.extensionSelect, .text "(whiteboard.name=guard)")])

def alley : Application :=
  .ofProperties (.registered 11)
    (.ofList [(Keys.name, .text "alley"), (Keys.applicationBase, .text "/alley")])

def peddler : Content :=
  .ofProperties .resource (.registered 12)
    (.ofList [(Keys.name, .text "peddler"), (Keys.extensionSelect, .text "(roofed=yes)"),
      (Keys.applicationSelect, .text "(|(whiteboard.name=plaza)(whiteboard.name=alley))")]) none

def fair : Snapshot :=
  ⟨3, [⟨1, .application plaza⟩, ⟨2, .application alley⟩, ⟨3, .content peddler⟩]⟩

theorem fair_admitted : Pass.admitted (Pass.candidates reconciler.builtin fair) .empty =
    Pass.candidates reconciler.builtin fair :=
  Pass.admitted_eq_self (by decide +kernel) (by decide +kernel)

theorem plaza_breaks : (Pass.judge .empty ⟨1, plaza⟩ [⟨3, peddler⟩]).outcome =
    ⟨plaza.profile.requires.head?, []⟩ := by
  rw [Pass.judge_outcome, (Site.check_eq_resolve _).1]
  exact Graph.resolve_pair _ none (by decide +kernel) (by decide +kernel) (by decide +kernel)
    (by decide +kernel)

theorem alley_lets_go : (Pass.judge .empty ⟨2, alley⟩ [⟨3, peddler⟩]).outcome =
    ⟨none, peddler.profile.requires.head?.toList.map fun sel => (0, sel)⟩ := by
  rw [Pass.judge_outcome, (Site.check_eq_resolve _).1]
  exact Graph.resolve_pair _ _ (by decide +kernel) (by decide +kernel) (by decide +kernel)
    (by decide +kernel)

theorem fair_verdicts : reconciler.verdicts fair .empty =
    [⟨⟨1, plaza⟩, [⟨3, peddler⟩], ⟨plaza.profile.requires.head?, []⟩⟩,
      ⟨⟨2, alley⟩, [⟨3, peddler⟩],
        ⟨none, peddler.profile.requires.head?.toList.map fun sel => (0, sel)⟩⟩,
      ⟨⟨0, reconciler.builtin⟩, [], .intact⟩] := by
  have hmembers : (reconciler.verdicts fair .empty).map (fun v => (v.application, v.members)) =
      [(⟨1, plaza⟩, [⟨3, peddler⟩]), (⟨2, alley⟩, [⟨3, peddler⟩]),
        (⟨0, reconciler.builtin⟩, [])] := by
    rw [Reconciler.verdicts, Reconciler.field, Pass.pools, fair_admitted]
    decide +kernel
  have hbuiltin : (Pass.judge .empty ⟨0, reconciler.builtin⟩ []).outcome = .intact := by
    decide +kernel
  rw [Reconciler.verdicts_eq_judge, hmembers, ← plaza_breaks, ← alley_lets_go, ← hbuiltin]
  rfl

/-- The plaza fails and lets the peddler go, and then the alley does, which has no roof. -/
theorem peddler_told_by_alley : fair.Keyed ∧
    ∃ f ∈ (reconciler.run fair .empty).failures .resource, f.record = .content peddler ∧
      f.cause.reason = .requiredExtensionsUnavailable ∧
      f.cause.detail = "unsatisfied (roofed=yes) in application 'alley'" ∧
      ∃ host, Pass.IsLastHost (reconciler.verdicts fair .empty) ⟨3, peddler⟩ host ∧
        host.Releases .empty ⟨3, peddler⟩ f.cause.reason f.cause.detail := by
  have hkeyed : fair.Keyed := by decide +kernel
  have hf : ∃ f ∈ (reconciler.run fair .empty).failures .resource, f.record = .content peddler ∧
      f.cause.reason = .requiredExtensionsUnavailable ∧
      f.cause.detail = "unsatisfied (roofed=yes) in application 'alley'" := by
    simp only [Reconciler.failures_eq, Pass.sortFailures, List.mem_mergeSort, Reconciler.reported,
      fair_verdicts, Reconciler.field, Pass.pools, fair_admitted]
    decide +kernel
  have hv : ∃ v ∈ reconciler.verdicts fair .empty, ⟨3, peddler⟩ ∈ v.members := by
    simp [fair_verdicts]
  obtain ⟨f, hf, hrecord, hreason, hdetail⟩ := hf
  obtain ⟨v, hv, hc⟩ := hv
  obtain ⟨-, host, hlast, hreleases⟩ := (reconciler.run_reports_last_detachment hkeyed .empty).told
    v hv ⟨3, peddler⟩ hc .resource f hf (congrArg Record.key hrecord)
  exact ⟨hkeyed, f, hf, hrecord, hreason, hdetail, host, hlast, hreleases⟩

end Shop

end Reconciliation
