import Reconciliation.Proofs.Resolution.Determinism
import Reconciliation.Proofs.Resolution.Rivalry
import Reconciliation.Resolution.Shelves

/-! # Shelves in order

Where everything stands on the shelf of its kind, shelves say no more than a snapshot does, and a
pass over them comes to the same outcome.
-/
namespace Reconciliation

/-- What either of two partial functions finds, none of which finds what the other does. -/
theorem filterMap_or_perm {α β : Type} {g h : α → Option β} (hd : ∀ x, g x = none ∨ h x = none)
    (xs : List α) : (xs.filterMap fun x => (g x).or (h x)).Perm (xs.filterMap g ++ xs.filterMap h) := by
  induction xs with
  | nil => rfl
  | cons x xs ih =>
    cases hg : g x with
    | none =>
      cases hh : h x with
      | none => simpa [hg, hh] using ih
      | some b => simpa [hg, hh] using (ih.cons b).trans List.perm_middle.symm
    | some b =>
      have hh : h x = none := (hd x).resolve_left (by simp [hg])
      simpa [hg, hh] using ih.cons b

namespace Contest

variable {α β : Type}

theorem lookup_map_winners (g : β → α) (winners : List (String × β)) (k : String) :
    (winners.map (Prod.map id g)).lookup k = (winners.lookup k).map g := by
  induction winners with
  | nil => rfl
  | cons w ws ih =>
    obtain ⟨j, b⟩ := w
    simp only [List.map_cons, Prod.map, id, List.lookup_cons, ih]
    cases k == j <;> rfl

/-- A rule decides on entries that are seen through a view as it does on what is seen. -/
theorem judge_map (c : Contest α) (g : β → α) (winners : List (String × β)) (xs : List β) :
    c.judge (winners.map (Prod.map id g)) (xs.map g) =
      ((c.through g).judge winners xs).map (Prod.map g (Option.map g)) := by
  induction xs generalizing winners with
  | nil => rfl
  | cons x xs ih =>
    have hstake : (c.through g).stake x = c.stake (g x) := rfl
    rw [List.map_cons, judge, judge, hstake]
    cases c.stake (g x) with
    | none => exact congrArg _ (ih winners)
    | some k =>
      simp only [lookup_map_winners]
      cases winners.lookup k with
      | none => exact congrArg _ (ih ((k, x) :: winners))
      | some w =>
        refine congrArg₂ _ ?_ (ih winners)
        cases hs : c.spares (g w) (g x) <;> simp [through, hs]

theorem survivors_map (c : Contest α) (g : β → α) (xs : List β) :
    c.survivors (xs.map g) = ((c.through g).survivors xs).map g := by
  rw [survivors, survivors, verdicts, verdicts, List.map_filterMap, ← List.map_nil, judge_map,
    List.filterMap_map]
  refine List.filterMap_congr fun v _ => ?_
  cases hv : v.2 <;> simp [hv]

theorem losses_map (c : Contest α) (g : β → α) (xs : List β) :
    c.losses (xs.map g) = ((c.through g).losses xs).map (Prod.map g g) := by
  rw [losses, losses, verdicts, verdicts, List.map_filterMap, ← List.map_nil, judge_map,
    List.filterMap_map]
  refine List.filterMap_congr fun v _ => ?_
  cases hv : v.2 <;> simp [hv]

end Contest

namespace Shelved

@[simp] theorem record_ofRecord (r : Record) : (ofRecord r).record = r := by
  cases r <;> rfl

@[simp] theorem label_ofRecord (r : Record) : (ofRecord r).label = r := by
  cases r <;> rfl

@[simp] theorem kind_ofRecord (r : Record) : (ofRecord r).kind = r.kind := by
  cases r <;> rfl

@[simp] theorem key_ofRecord (r : Record) : (ofRecord r).key = r.key := by
  cases r <;> rfl

end Shelved

theorem Shelves.inOrder_iff {s : Shelves} : s.InOrder ↔ ∃ s' : Snapshot, s = .ofSnapshot s' := by
  constructor
  · intro hs
    refine ⟨⟨s.changeCount, s.entries.map (Stored.map Shelved.record)⟩, ?_⟩
    have hentries : (s.entries.map (Stored.map Shelved.record)).map (Stored.map Shelved.ofRecord) =
        s.entries := by
      rw [List.map_map]
      refine (List.map_congr_left fun e he => ?_).trans (List.map_id s.entries)
      exact congrArg (Stored.mk e.revision) (hs e he)
    rw [ofSnapshot, hentries]
  · rintro ⟨s', rfl⟩ e he
    obtain ⟨e', -, rfl⟩ := List.mem_map.1 he
    exact congrArg Shelved.ofRecord (Shelved.record_ofRecord e'.record)

namespace ShelfPass

def shelve : Stored Record → Stored Shelved :=
  Stored.map Shelved.ofRecord

def shelveContent : Stored Content → Stored ShelvedContent :=
  Stored.map ShelvedContent.ofContent

theorem candidates_ofSnapshot (builtin : Application) (s : Snapshot) :
    candidates builtin (.ofSnapshot s) = (Pass.candidates builtin s).map shelve := by
  rw [candidates, Pass.candidates, List.map_append]
  rfl

theorem rejected_shelve (es : List (Stored Record)) :
    rejected (es.map shelve) = (Pass.rejected es).map Mishap.ofFailure := by
  rw [rejected, Pass.rejected, List.filterMap_map, List.map_filterMap]
  refine List.filterMap_congr fun e _ => ?_
  simp [shelve, Stored.map, Mishap.ofFailure, Function.comp_def]

theorem admitted_shelve (es : List (Stored Record)) (runtime : Properties) :
    admitted (es.map shelve) runtime = (Pass.admitted es runtime).map shelve := by
  have hsound : sound (es.map shelve) runtime =
      (es.filter fun e => e.record.fault.isNone && e.record.profile.suits runtime).map shelve := by
    rw [sound, List.filter_map]
    simp [shelve, Stored.map, Function.comp_def]
  rw [admitted, hsound, sortPool, Pass.admitted, Pass.sortPool]
  refine (List.map_mergeSort fun a _ b _ => ?_).symm
  simp [shelve, Stored.map]

theorem shelfContest_shelve (rule : Rule) :
    (shelfContest rule).through shelve = Pass.storedContest rule := by
  simp [shelfContest, Pass.storedContest, Contest.through, shelve, Stored.map]

theorem afterRule_shelve (rule : Rule) (pool : List (Stored Record)) :
    afterRule rule (pool.map shelve) = (Pass.afterRule rule pool).map shelve := by
  rw [afterRule, Contest.survivors_map, shelfContest_shelve]
  rfl

theorem lostTo_shelve (rule : Rule) (pool : List (Stored Record)) :
    lostTo rule (pool.map shelve) = (Pass.lostTo rule pool).map Mishap.ofFailure := by
  rw [lostTo, Contest.losses_map, shelfContest_shelve, Pass.lostTo, List.map_map, List.map_map]
  refine List.map_congr_left fun l _ => ?_
  simp [shelve, Stored.map]

namespace Field

def ofField (f : Pass.Field) : Field :=
  ⟨f.applications, f.content.map shelveContent⟩

end Field

namespace Verdict

def ofVerdict (v : Pass.Verdict) : Verdict :=
  ⟨v.members.map shelveContent, v⟩

end Verdict

theorem map_bare_shelveContent (cs : List (Stored Content)) :
    (cs.map shelveContent).map bare = cs := by
  rw [List.map_map]
  exact List.map_id cs

@[simp] theorem content_shelveContent (c : Stored Content) :
    (shelveContent c).record.content = c.record := rfl

@[simp] theorem placeOf_shelveContent (c : Stored Content) :
    placeOf (shelveContent c) = (Record.content c.record).key := rfl

theorem plain_ofField (f : Pass.Field) : (Field.ofField f).plain = f := by
  rw [Field.plain, Field.ofField, map_bare_shelveContent]

theorem ofPool_shelve (pool : List (Stored Record)) :
    Field.ofPool (pool.map shelve) = Field.ofField (Pass.Field.ofPool pool) := by
  have happlications : (pool.map shelve).filterMap (fun e =>
      e.record.application?.map fun a => Stored.mk e.revision a) =
        pool.filterMap fun e => e.record.application?.map fun a => ⟨e.revision, a⟩ := by
    rw [List.filterMap_map]
    refine List.filterMap_congr fun e _ => ?_
    obtain ⟨_, r⟩ := e
    cases r <;> rfl
  have hcontent : (pool.map shelve).filterMap (fun e =>
      e.record.content?.map fun c => Stored.mk e.revision c) =
        (pool.filterMap fun e => e.record.content?.map fun c => Stored.mk e.revision c).map
          shelveContent := by
    rw [List.filterMap_map, List.map_filterMap]
    refine List.filterMap_congr fun e _ => ?_
    obtain ⟨_, r⟩ := e
    cases r <;> rfl
  rw [Field.ofPool, Pass.Field.ofPool, Field.ofField, happlications, hcontent, List.map_append,
    List.filter_map, List.filter_map]
  rfl

section Verdict

variable (v : Pass.Verdict) (vs : List Pass.Verdict) (runtime : Properties)

theorem judge_shelve (a : Stored Application) (members : List (Stored Content)) :
    judge runtime a (members.map shelveContent) =
      Verdict.ofVerdict (Pass.judge runtime a members) := by
  rw [judge, map_bare_shelveContent]
  rfl

theorem remaining_ofVerdict :
    (Verdict.ofVerdict v).remaining = v.remaining.map shelveContent := by
  rw [Verdict.remaining, Verdict.ofVerdict, List.zipIdx_map, List.filterMap_map,
    Pass.Verdict.remaining, List.map_filterMap]
  refine List.filterMap_congr fun p _ => ?_
  simp only [Function.comp_apply, Prod.map]
  split <;> simp_all

theorem kept_ofVerdict : (Verdict.ofVerdict v).kept = v.kept.map shelveContent := by
  rw [Verdict.kept, Pass.Verdict.kept, remaining_ofVerdict]
  change (if v.outcome.application.isSome then [] else _) = _
  split <;> rfl

theorem keeps_ofVerdict (k : Key) : (Verdict.ofVerdict v).keeps k = v.keeps k := by
  rw [Verdict.keeps, kept_ofVerdict, List.any_map]
  rfl

theorem any_keeps_ofVerdict (k : Key) : ((vs.map Verdict.ofVerdict).any fun v => v.keeps k) =
    vs.any fun v => v.keeps k := by
  rw [List.any_map]
  congr 1
  exact funext fun v => keeps_ofVerdict v k

theorem detached_ofVerdict :
    (Verdict.ofVerdict v).detached = v.detached.map (Prod.map shelveContent id) := by
  have hunavailable : ((v.remaining.map shelveContent).map fun c => (c,
      Cause.applicationUnavailable c.record.content.kind v.application.record.profile.name)) =
      (v.remaining.map fun c => (c, Cause.applicationUnavailable c.record.kind
        v.application.record.profile.name)).map (Prod.map shelveContent id) := by
    rw [List.map_map, List.map_map]
    rfl
  rw [Verdict.detached, Pass.Verdict.detached, remaining_ofVerdict]
  simp only [Verdict.ofVerdict, hunavailable]
  split
  · rw [List.map_append, List.map_filterMap]
    congr 1
    exact List.filterMap_congr fun p _ => by simp [Function.comp_def]
  · rw [List.map_filterMap]
    exact List.filterMap_congr fun p _ => by simp [Function.comp_def]

theorem find?_detached_ofVerdict (c : Stored Content) :
    (((vs.map Verdict.ofVerdict).flatMap Verdict.detached).reverse.find? fun d =>
      placeOf d.1 == placeOf (shelveContent c)) =
    ((vs.flatMap Pass.Verdict.detached).reverse.find? fun d =>
      (Record.content d.1.record).key == (Record.content c.record).key).map
        (Prod.map shelveContent id) := by
  have hdetached : (vs.map Verdict.ofVerdict).flatMap Verdict.detached =
      (vs.flatMap Pass.Verdict.detached).map (Prod.map shelveContent id) := by
    rw [List.flatMap_map, List.map_flatMap]
    exact congrArg (fun g => vs.flatMap g) (funext detached_ofVerdict)
  rw [hdetached, ← List.map_reverse, List.find?_map]
  rfl

end Verdict

namespace Field

variable (f : Pass.Field) (vs : List Pass.Verdict) (runtime : Properties)

theorem membersAt_ofField (i : Nat) :
    (ofField f).membersAt i = (f.membersAt i).map shelveContent := by
  rw [membersAt, plain_ofField, ofField, List.filter_map]
  rfl

theorem otherVerdicts_ofField :
    (ofField f).otherVerdicts runtime = (f.otherVerdicts runtime).map Verdict.ofVerdict := by
  rw [otherVerdicts, plain_ofField, Pass.Field.otherVerdicts, List.map_filterMap]
  refine List.filterMap_congr fun p _ => ?_
  obtain ⟨a, i⟩ := p
  dsimp only
  rw [membersAt_ofField, judge_shelve]
  split <;> rfl

theorem defaultMembers_ofField (i : Nat) :
    (ofField f).defaultMembers i (vs.map Verdict.ofVerdict) =
      (f.defaultMembers i vs).map shelveContent := by
  have hhomeless (c : Stored Content) :
      (ofField f).isHomeless (vs.map Verdict.ofVerdict) (shelveContent c) =
        f.isHomeless vs c.record := by
    rw [isHomeless, plain_ofField, any_keeps_ofVerdict]
    rfl
  rw [defaultMembers, plain_ofField]
  change List.filter _ (f.content.map shelveContent) = _
  rw [List.filter_map, Pass.Field.defaultMembers]
  congr 1
  refine List.filter_congr fun c _ => ?_
  rw [Function.comp_apply, hhomeless]
  rfl

theorem verdicts_ofField :
    (ofField f).verdicts runtime = (f.verdicts runtime).map Verdict.ofVerdict := by
  rw [verdicts, Pass.Field.verdicts, plain_ofField, otherVerdicts_ofField]
  cases f.effective with
  | none => rfl
  | some i =>
    simp only [defaultMembers_ofField, judge_shelve, List.map_append]
    congr 1
    change (Option.map _ f.applications[i]?).toList = _
    cases f.applications[i]? <;> rfl

theorem contentFailure?_eq (c : Stored Content) :
    f.contentFailure? vs c = ((ofField f).untaken? (shelveContent c)).or
      ((ofField f).letGo? (vs.map Verdict.ofVerdict) (shelveContent c)) := by
  rw [untaken?, letGo?, plain_ofField, any_keeps_ofVerdict, find?_detached_ofVerdict,
    Pass.Field.contentFailure?]
  cases ht : (f.targets c.record).isEmpty
  · simp [ht, Function.comp_def]
  · cases hs : c.record.select <;> simp [ht, hs]

theorem record_of_untaken? {g : Field} {c : Stored ShelvedContent} {fl : Failure}
    (h : g.untaken? c = some fl) : fl.record = .content c.record.content := by
  rw [untaken?] at h
  split at h
  · rw [← Option.some.inj h]
  · cases h

theorem record_of_letGo? {g : Field} {ws : List Verdict} {c : Stored ShelvedContent} {fl : Failure}
    (h : g.letGo? ws c = some fl) : fl.record = .content c.record.content := by
  rw [letGo?] at h
  split at h
  · cases h
  · obtain ⟨d, -, rfl⟩ := Option.map_eq_some_iff.1 h
    rfl

theorem failures_ofField : (ofField f).failures (vs.map Verdict.ofVerdict) =
    f.content.filterMap (fun c => (ofField f).untaken? (shelveContent c)) ++
      vs.filterMap Pass.Verdict.failure? ++
        f.content.filterMap fun c =>
          (ofField f).letGo? (vs.map Verdict.ofVerdict) (shelveContent c) := by
  rw [failures, List.filterMap_map]
  change List.filterMap _ (f.content.map shelveContent) ++ _ ++
    List.filterMap _ (f.content.map shelveContent) = _
  rw [List.filterMap_map, List.filterMap_map]
  rfl

theorem untaken?_or_letGo? (g : Field) (ws : List Verdict) (c : Stored ShelvedContent) :
    g.untaken? c = none ∨ g.letGo? ws c = none := by
  rw [untaken?, letGo?]
  cases (g.plain.targets c.record.content).isEmpty <;> simp

theorem failures_ofField_perm :
    ((ofField f).failures (vs.map Verdict.ofVerdict)).Perm (f.failures vs) := by
  have hcontent := List.filterMap_congr (l := f.content) fun c _ => contentFailure?_eq f vs c
  have hperm := filterMap_or_perm (fun c => untaken?_or_letGo? (ofField f)
    (vs.map Verdict.ofVerdict) (shelveContent c)) f.content
  rw [failures_ofField, Pass.Field.failures, hcontent, List.append_assoc]
  exact (List.perm_append_comm_assoc _ _ _).trans (hperm.symm.append_left _)

theorem filter_failures_ofField :
    (((ofField f).failures (vs.map Verdict.ofVerdict)).filter fun fl =>
      fl.record.kind == .application) =
        (f.failures vs).filter fun fl => fl.record.kind == .application := by
  have hnone {h : Stored Content → Option Failure}
      (hc : ∀ c fl, h c = some fl → fl.record = .content c.record) :
      ((f.content.filterMap h).filter fun fl => fl.record.kind == .application) = [] := by
    refine List.filter_eq_nil_iff.2 fun fl hfl => ?_
    obtain ⟨c, -, hfl⟩ := List.mem_filterMap.1 hfl
    rw [hc c fl hfl]
    cases hk : c.record.kind <;> simp [Record.kind, hk, ContentKind.kind]
  have hcontent : ∀ c fl, f.contentFailure? vs c = some fl → fl.record = .content c.record := by
    intro c fl hfl
    rw [contentFailure?_eq, Option.or_eq_some_iff] at hfl
    rcases hfl with hfl | ⟨-, hfl⟩
    · exact record_of_untaken? hfl
    · exact record_of_letGo? hfl
  have huntaken : ∀ c fl, (ofField f).untaken? (shelveContent c) = some fl →
      fl.record = .content c.record := fun _ _ => record_of_untaken?
  have hletGo : ∀ c fl, (ofField f).letGo? (vs.map Verdict.ofVerdict) (shelveContent c) = some fl →
      fl.record = .content c.record := fun _ _ => record_of_letGo?
  rw [failures_ofField, Pass.Field.failures]
  simp only [List.filter_append, hnone hcontent, hnone huntaken, hnone hletGo, List.append_nil,
    List.nil_append]

end Field

end ShelfPass

theorem Resolution.eq_of_parts {a b : Resolution} (hcount : a.changeCount = b.changeCount)
    (happlications : a.applications = b.applications)
    (hdefault : a.defaultApplication = b.defaultApplication)
    (hfailures : ∀ kind, a.failures kind = b.failures kind) : a = b := by
  obtain ⟨_, _, _, _, _, _⟩ := a
  have happlication := hfailures .application
  have hresource := hfailures .resource
  have hextension := hfailures .extension
  simp_all [failures]

namespace Reconciler

def shelfField (r : Reconciler) (s : Shelves) (runtime : Properties) : ShelfPass.Field :=
  .ofPool (ShelfPass.pools (ShelfPass.candidates r.builtin s) runtime).afterDefault

def shelfVerdicts (r : Reconciler) (s : Shelves) (runtime : Properties) :
    List ShelfPass.Verdict :=
  (r.shelfField s runtime).verdicts runtime

def mishaps (r : Reconciler) (s : Shelves) (runtime : Properties) : List Mishap :=
  ShelfPass.allMishaps (ShelfPass.candidates r.builtin s)
    (ShelfPass.pools (ShelfPass.candidates r.builtin s) runtime) (r.shelfField s runtime)
    (r.shelfVerdicts s runtime)

def shelfAccepted (r : Reconciler) (s : Shelves) (runtime : Properties) : List Accepted :=
  (r.shelfVerdicts s runtime).filterMap fun v => v.plain.accepted?

def shelfDefaultId? (r : Reconciler) (s : Shelves) (runtime : Properties) : Option ProviderId :=
  ((r.shelfField s runtime).plain.effective.bind fun i =>
    (r.shelfField s runtime).applications[i]?).map fun a => a.record.profile.id

theorem shelfApplications_eq (r : Reconciler) (s : Shelves) (runtime : Properties) :
    (r.runShelves s runtime).applications =
      (r.shelfAccepted s runtime).mergeSort fun a b => decide (a.base ≤ b.base) := rfl

theorem shelfDefaultApplication_eq (r : Reconciler) (s : Shelves) (runtime : Properties) :
    (r.runShelves s runtime).defaultApplication =
      (r.shelfDefaultId? s runtime).filter fun id =>
        (r.shelfAccepted s runtime).any fun a => a.id == id := rfl

theorem shelfFailures_eq (r : Reconciler) (s : Shelves) (runtime : Properties) (kind : Kind) :
    (r.runShelves s runtime).failures kind = Pass.sortFailures
      (((Pass.lastOfEach Mishap.key (r.mishaps s runtime)).filter fun m =>
        m.provider.kind == kind).map Mishap.failure) := by
  cases kind <;> rfl

variable {r : Reconciler} {s : Snapshot} {runtime : Properties}

theorem shelfPools_ofSnapshot (r : Reconciler) (s : Snapshot) (runtime : Properties) :
    ShelfPass.pools (ShelfPass.candidates r.builtin (.ofSnapshot s)) runtime =
      ⟨(r.pools s runtime).admitted.map ShelfPass.shelve,
        (r.pools s runtime).afterPath.map ShelfPass.shelve,
        (r.pools s runtime).afterName.map ShelfPass.shelve,
        (r.pools s runtime).afterDefault.map ShelfPass.shelve⟩ := by
  simp only [ShelfPass.pools, ShelfPass.candidates_ofSnapshot, ShelfPass.admitted_shelve,
    ShelfPass.afterRule_shelve]
  rfl

theorem shelfField_ofSnapshot (r : Reconciler) (s : Snapshot) (runtime : Properties) :
    r.shelfField (.ofSnapshot s) runtime = .ofField (r.field s runtime) := by
  rw [shelfField, shelfPools_ofSnapshot]
  exact ShelfPass.ofPool_shelve _

theorem shelfVerdicts_ofSnapshot (r : Reconciler) (s : Snapshot) (runtime : Properties) :
    r.shelfVerdicts (.ofSnapshot s) runtime =
      (r.verdicts s runtime).map ShelfPass.Verdict.ofVerdict := by
  rw [shelfVerdicts, shelfField_ofSnapshot, ShelfPass.Field.verdicts_ofField]
  rfl

/-- What a snapshot's pass meets as failures, in the order in which a pass over shelves does. -/
def met (r : Reconciler) (s : Snapshot) (runtime : Properties) : List Failure :=
  Pass.rejected (Pass.candidates r.builtin s) ++ Pass.lostTo .path (r.pools s runtime).admitted ++
    Pass.lostTo .name (r.pools s runtime).afterPath ++
    Pass.lostTo .default (r.pools s runtime).afterName ++
    (r.shelfField (.ofSnapshot s) runtime).failures (r.shelfVerdicts (.ofSnapshot s) runtime)

theorem mishaps_ofSnapshot (r : Reconciler) (s : Snapshot) (runtime : Properties) :
    r.mishaps (.ofSnapshot s) runtime = (r.met s runtime).map Mishap.ofFailure := by
  rw [mishaps, ShelfPass.allMishaps, shelfPools_ofSnapshot, ShelfPass.candidates_ofSnapshot]
  simp only [ShelfPass.rejected_shelve, ShelfPass.lostTo_shelve, ← List.map_append]
  rfl

theorem met_perm (r : Reconciler) (s : Snapshot) (runtime : Properties) :
    (r.met s runtime).Perm (r.reported s runtime) := by
  rw [met, shelfField_ofSnapshot, shelfVerdicts_ofSnapshot]
  exact (ShelfPass.Field.failures_ofField_perm _ _).append_left _

theorem met_applications (r : Reconciler) (s : Snapshot) (runtime : Properties) :
    ((r.met s runtime).filter fun f => f.record.kind == .application) =
      (r.reported s runtime).filter fun f => f.record.kind == .application := by
  rw [met, shelfField_ofSnapshot, shelfVerdicts_ofSnapshot, List.filter_append,
    ShelfPass.Field.filter_failures_ofField, ← List.filter_append]
  rfl

theorem content_keys_nodup (r : Reconciler) {s : Snapshot} (h : s.Keyed) (runtime : Properties)
    {kind : Kind} (hk : kind ≠ .application) :
    (((r.reported s runtime).filter fun f => f.record.kind == kind).map
      fun f => f.record.key).Nodup := by
  refine List.nodup_iff_count_le_one.2 fun k => ?_
  have hsub : ((r.reported s runtime).filter fun f => f.record.kind == kind).Sublist
      (r.reported s runtime) := List.filter_sublist
  by_cases hkey : k.kind = .application
  · have hnone : k ∉ ((r.reported s runtime).filter fun f => f.record.kind == kind).map
        fun f => f.record.key := by
      intro hmem
      obtain ⟨f, hf, rfl⟩ := List.mem_map.1 hmem
      exact hk ((beq_iff_eq.1 (List.mem_filter.1 hf).2).symm.trans hkey)
    rw [List.count_eq_zero.2 hnone]
    exact Nat.zero_le 1
  · have hfree : ¬ r.SharesBuiltin s k := fun hshare => hkey (hshare.1 ▸ rfl)
    exact ((hsub.map _).count_le k).trans (reported_count_le h runtime hfree)

/-- Under each kind the same failures stand, though those of content are met in another order. -/
theorem failures_of_met (h : s.Keyed) (kind : Kind) :
    Pass.sortFailures ((Pass.lastOfEachKey (r.met s runtime)).filter fun f =>
      f.record.kind == kind) = (r.run s runtime).failures kind := by
  have hkind (fs : List Failure) : ((Pass.lastOfEachKey fs).filter fun f => f.record.kind == kind) =
      Pass.lastOfEachKey (fs.filter fun f => f.record.kind == kind) :=
    (Pass.lastOfEach_filter (fun f : Failure => f.record.key) (fun k => k.kind == kind) fs).symm
  rw [failures_eq, hkind, hkind]
  by_cases hk : kind = .application
  · subst hk
    rw [met_applications]
  · have hnodup := content_keys_nodup r h runtime hk
    have hperm := (met_perm r s runtime).filter fun f => f.record.kind == kind
    have hnodup' := (hperm.map fun f => f.record.key).nodup_iff.2 hnodup
    rw [Pass.lastOfEachKey, Pass.lastOfEachKey, Pass.lastOfEach_of_nodup hnodup,
      Pass.lastOfEach_of_nodup hnodup']
    exact Pass.sortFailures_eq_of_perm hperm hnodup' fun f hf =>
      beq_iff_eq.1 (List.mem_filter.1 hf).2

/-- A pass over shelves in order comes to what a pass over the snapshot comes to. -/
theorem runShelves_ofSnapshot (r : Reconciler) {s : Snapshot} (h : s.Keyed)
    (runtime : Properties) : r.runShelves (.ofSnapshot s) runtime = r.run s runtime := by
  have haccepted : r.shelfAccepted (.ofSnapshot s) runtime = r.accepted s runtime := by
    rw [shelfAccepted, shelfVerdicts_ofSnapshot, List.filterMap_map]
    rfl
  have hdefault : r.shelfDefaultId? (.ofSnapshot s) runtime = r.defaultId? s runtime := by
    rw [shelfDefaultId?, shelfField_ofSnapshot, ShelfPass.plain_ofField]
    rfl
  refine Resolution.eq_of_parts rfl ?_ ?_ fun kind => ?_
  · rw [shelfApplications_eq, applications_eq, haccepted]
  · rw [shelfDefaultApplication_eq, defaultApplication_eq, haccepted, hdefault]
  · have hkeys : (fun f => (Mishap.ofFailure f).key) = fun f : Failure => f.record.key :=
      funext fun f => Shelved.key_ofRecord f.record
    have hfailure : Mishap.failure ∘ Mishap.ofFailure = id := by
      funext f
      simp [Mishap.failure, Mishap.ofFailure]
    have hkind : ((fun m : Mishap => m.provider.kind == kind) ∘ Mishap.ofFailure) =
        fun f : Failure => f.record.kind == kind := by
      funext f
      simp [Mishap.ofFailure]
    rw [shelfFailures_eq, mishaps_ofSnapshot, Pass.lastOfEach_map, List.filter_map, List.map_map,
      hkeys, hfailure, hkind, List.map_id]
    exact failures_of_met h kind

end Reconciler

end Reconciliation
