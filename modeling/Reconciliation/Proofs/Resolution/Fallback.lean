import Reconciliation.Proofs.Resolution.Detachment
import Reconciliation.Proofs.Resolution.Unnamed

/-! # Whether there is a default to fall back to

Whoever displaces the built-in default in one rule is open to the next one, and in the rule of names
the winner may be content. So the default is lost in one case only.
-/
namespace Reconciliation

def Record.AtRoot (r : Record) : Prop :=
  ∃ a, r = .application a ∧ a.base = "/"

/-- The cause says no more than that there was no application to be attached to. -/
def Cause.lacksApplication : Cause → Bool
  | noneMatches _ | noApplication => true
  | _ => false

namespace Pass

theorem Field.effective_isSome_iff {f : Field} : f.effective.isSome = true ↔
    ∃ a ∈ f.applications, a.record.isDefault = true ∨ a.record.base = "/" := by
  simp only [effective, Option.isSome_or, List.findIdx?_isSome, Bool.or_eq_true, List.any_eq_true,
    Application.standsIn]
  constructor
  · rintro (⟨a, ha, hd⟩ | ⟨a, ha, hs⟩)
    · exact ⟨a, ha, Or.inl hd⟩
    · exact ⟨a, ha, Or.inr (beq_iff_eq.1 (Bool.and_eq_true_iff.1 hs).2)⟩
  · rintro ⟨a, ha, hdr⟩
    cases hd : a.record.isDefault with
    | true => exact Or.inl ⟨a, ha, hd⟩
    | false =>
      have hroot : a.record.base = "/" := hdr.resolve_left (by simp [hd])
      exact Or.inr ⟨a, ha, by simp [hd, hroot]⟩

theorem root_unique {pool : List (Stored Record)} {i j : Nat} {x y : Stored Record}
    (hi : (afterRule .path pool)[i]? = some x) (hj : (afterRule .path pool)[j]? = some y)
    (hx : x.record.AtRoot) (hy : y.record.AtRoot) : i = j := by
  have hspare : ∀ w x, (storedContest .path).spares w x = false := by
    intro w x
    simp only [storedContest, Contest.through, Record.contest, Record.amongApplications]
    split <;> rfl
  have hstake : ∀ e : Stored Record, e.record.AtRoot →
      (storedContest .path).stake e = some "/" := by
    rintro ⟨n, _⟩ ⟨a, rfl, hbase⟩
    exact congrArg some hbase
  have hp := List.pairwise_iff_getElem.1 (Contest.survivors_pairwise hspare pool)
  obtain ⟨hli, rfl⟩ := List.getElem?_eq_some_iff.1 hi
  obtain ⟨hlj, rfl⟩ := List.getElem?_eq_some_iff.1 hj
  rcases Nat.lt_trichotomy i j with hlt | heq | hlt
  · exact absurd (hstake _ hy) (hp i j hli hlj hlt "/" (hstake _ hx))
  · exact heq
  · exact absurd (hstake _ hx) (hp j i hlj hli hlt "/" (hstake _ hy))

theorem lacksApplication_of_detached {v : Verdict} {d : Stored Content × Cause}
    (h : d ∈ v.detached) : d.2.lacksApplication = false := by
  rcases Verdict.mem_detached h with h | h
  · obtain ⟨r, -, hd⟩ := List.mem_filterMap.1 h
    obtain ⟨_, -, rfl⟩ := Option.map_eq_some_iff.1 hd
    rfl
  · obtain ⟨c, -, rfl⟩ := List.mem_map.1 h
    rfl

end Pass

namespace Reconciler

/-- No default application has won its path, and the application that has won the root loses its
name to somebody else. -/
structure LeavesNoDefault (r : Reconciler) (s : Snapshot) (runtime : Properties) : Prop where
  no_default : ∀ e ∈ (r.pools s runtime).afterPath, e.record.isDefault = false
  root_lost : ∃ i x w, (r.pools s runtime).afterPath[i]? = some x ∧ x.record.AtRoot ∧
    Pass.beatenBy .name ((r.pools s runtime).afterPath.take i) x = some w

section Survivors

variable {r : Reconciler} {id : ProviderId} {s : Snapshot} {runtime : Properties}

theorem builtin_admitted : (⟨0, .application (.builtin id)⟩ : Stored Record) ∈
    (pools ⟨.builtin id⟩ s runtime).admitted := by
  obtain ⟨-, -, hfault, hsuits⟩ := Application.builtin_sound id
  exact Pass.mem_admitted.2 ⟨List.mem_append_right _ List.mem_cons_self, hfault, hsuits runtime⟩

/-- The root is won by somebody, for the built-in default is there to win it. -/
theorem exists_root (id : ProviderId) (s : Snapshot) (runtime : Properties) :
    ∃ x ∈ (pools ⟨.builtin id⟩ s runtime).afterPath, x.record.AtRoot := by
  rcases Pass.mem_afterRule_or_rival .path builtin_admitted with h | ⟨w, hw, hrivals⟩
  · exact ⟨_, h, .builtin id, rfl, rfl⟩
  · obtain ⟨n, w⟩ := w
    cases w with
    | content c => cases hrivals
    | application a => exact ⟨_, hw, a, rfl, beq_iff_eq.1 hrivals⟩

/-- A default application that has won its path is exempt from the rule of names, and loses to no
one but another default. -/
theorem default_survives {e : Stored Record} (he : e ∈ (r.pools s runtime).afterPath)
    (hd : e.record.isDefault = true) :
    ∃ a ∈ (r.field s runtime).applications, a.record.isDefault = true := by
  have hname : e ∈ (r.pools s runtime).afterName :=
    Pass.mem_afterRule_of_unrivaled he fun w _ => by simp [Record.rivals, hd]
  obtain ⟨w, hw, hwd⟩ : ∃ w ∈ (r.pools s runtime).afterDefault, w.record.isDefault = true := by
    rcases Pass.mem_afterRule_or_rival .default hname with h | ⟨w, hw, hrivals⟩
    · exact ⟨e, h, hd⟩
    · exact ⟨w, hw, (Bool.and_eq_true_iff.1 hrivals).1⟩
  obtain ⟨n, w⟩ := w
  cases w with
  | content c => cases hwd
  | application a => exact ⟨⟨n, a⟩, Pass.mem_applications.2 hw, hwd⟩

/-- A root application that keeps its name survives, unless it is in the way of another default. -/
theorem root_survives {i : Nat} {x : Stored Record}
    (hx : (r.pools s runtime).afterPath[i]? = some x) (hroot : x.record.AtRoot)
    (hd : x.record.isDefault = false)
    (hkept : Pass.beatenBy .name ((r.pools s runtime).afterPath.take i) x = none) :
    ∃ a ∈ (r.field s runtime).applications, a.record.base = "/" := by
  have hname : x ∈ (r.pools s runtime).afterName := Pass.mem_afterRule_iff.2 ⟨i, hx, hkept⟩
  have hdefault : x ∈ (r.pools s runtime).afterDefault :=
    Pass.mem_afterRule_of_unrivaled hname fun w _ => by simp [Record.rivals, hd]
  obtain ⟨n, _⟩ := x
  obtain ⟨a, rfl, hbase⟩ := hroot
  exact ⟨⟨n, a⟩, Pass.mem_applications.2 hdefault, hbase⟩

/-- Once the root is lost and no default has won its path, there is none left. -/
theorem LeavesNoDefault.nobody (h : r.LeavesNoDefault s runtime) {a : Stored Application}
    (ha : a ∈ (r.field s runtime).applications) :
    a.record.isDefault = false ∧ a.record.base ≠ "/" := by
  have hname : Stored.ofApplication a ∈ (r.pools s runtime).afterName :=
    (Pass.afterRule_sublist _ _).subset (Pass.mem_applications.1 ha)
  refine ⟨h.no_default _ ((Pass.afterRule_sublist _ _).subset hname), ?_⟩
  intro hbase
  obtain ⟨j, hj, hunbeaten⟩ := Pass.mem_afterRule_iff.1 hname
  obtain ⟨i, x, w, hi, hroot, hbeaten⟩ := h.root_lost
  obtain rfl := Pass.root_unique hi hj hroot ⟨a.record, rfl, hbase⟩
  obtain rfl := Option.some.inj (hi.symm.trans hj)
  cases hbeaten.symm.trans hunbeaten

theorem exists_default_iff : (∃ a ∈ (field ⟨.builtin id⟩ s runtime).applications,
    a.record.isDefault = true ∨ a.record.base = "/") ↔
      ¬ LeavesNoDefault ⟨.builtin id⟩ s runtime := by
  constructor
  · rintro ⟨a, ha, hd | hbase⟩ hnone
    · rw [(hnone.nobody ha).1] at hd
      cases hd
    · exact (hnone.nobody ha).2 hbase
  · intro hleft
    by_cases hd : ∃ e ∈ (pools ⟨.builtin id⟩ s runtime).afterPath, e.record.isDefault = true
    · obtain ⟨e, he, hd⟩ := hd
      obtain ⟨a, ha, had⟩ := default_survives he hd
      exact ⟨a, ha, Or.inl had⟩
    · have hnone : ∀ e ∈ (pools ⟨.builtin id⟩ s runtime).afterPath, e.record.isDefault = false :=
        fun e he => by simpa using fun h => hd ⟨e, he, h⟩
      obtain ⟨x, hx, hroot⟩ := exists_root id s runtime
      obtain ⟨i, hi⟩ := List.mem_iff_getElem?.1 hx
      cases hb : Pass.beatenBy .name ((pools ⟨.builtin id⟩ s runtime).afterPath.take i) x with
      | none =>
        obtain ⟨a, ha, hbase⟩ := root_survives hi hroot (hnone x hx) hb
        exact ⟨a, ha, Or.inr hbase⟩
      | some w => exact absurd ⟨hnone, i, x, w, hi, hroot, hb⟩ hleft

end Survivors

inductive Blames (r : Reconciler) (s : Snapshot) (runtime : Properties) (c : Content) :
    Cause → Prop where
  /-- It is at fault itself. -/
  | fault {cause : Cause} (faulty : c.fault = some cause) (own : cause.reason.isFault = true) :
    r.Blames s runtime c cause
  /-- It has to give way to another provider of its name. -/
  | name {i : Nat} {x w : Stored Record} (loser : (r.pools s runtime).afterPath[i]? = some x)
    (is_content : x.record = .content c)
    (beaten : Pass.beatenBy .name ((r.pools s runtime).afterPath.take i) x = some w) :
    r.Blames s runtime c (.nameTaken w.record.name w.record.kind w.record.id)
  /-- It was let go by all, for a requirement of its own or with an application that failed. -/
  | release {revision : Nat} {host : Pass.Verdict} {cause : Cause}
    (last : Pass.IsLastHost (r.verdicts s runtime) ⟨revision, c⟩ host)
    (told : host.Releases runtime ⟨revision, c⟩ cause.reason cause.detail) :
    r.Blames s runtime c cause

structure HoldsDefault (r : Reconciler) (s : Snapshot) (runtime : Properties) : Prop where
  survives : (∃ a ∈ (r.field s runtime).applications,
    a.record.profile.name = Keys.defaultName ∨ a.record.base = "/") ↔ ¬ r.LeavesNoDefault s runtime
  found : (r.field s runtime).effective.isSome = true ↔ ¬ r.LeavesNoDefault s runtime
  content : ¬ r.LeavesNoDefault s runtime → ∀ kind, ∀ f ∈ (r.run s runtime).failures kind,
    ∀ c, f.record = .content c → c.fallsBack = true →
      f.cause.lacksApplication = false ∧ r.Blames s runtime c f.cause

section Content

variable {r : Reconciler} {s : Snapshot} {runtime : Properties} {c : Content} {f : Failure}

/-- Content that was attached somewhere fails with what its last host says. -/
theorem blames_of_field (h : s.Keyed)
    (hf : f ∈ (r.field s runtime).failures (r.verdicts s runtime)) (hc : f.record = .content c)
    (ht : (r.field s runtime).targets c ≠ []) :
    f.cause.lacksApplication = false ∧ r.Blames s runtime c f.cause := by
  have hd := field_distinct (r := r) h runtime
  rcases List.mem_append.1 hf with hf | hf
  · obtain ⟨v, -, hv⟩ := List.mem_filterMap.1 hf
    obtain ⟨sel, -, rfl⟩ := Option.map_eq_some_iff.1 hv
    cases hc
  · obtain ⟨⟨revision, d⟩, hm, hfailure⟩ := List.mem_filterMap.1 hf
    obtain rfl : d = c :=
      Record.content.inj ((Pass.Field.contentFailure?_record hfailure).symm.trans hc)
    obtain ⟨host, hlast, hdetached⟩ := Pass.Field.exists_lastHost_of_failure hd hm ht hfailure
    refine ⟨Pass.lacksApplication_of_detached hdetached, ?_⟩
    exact .release hlast (releases_of_detached h hlast.mem hdetached)

theorem blames_of_lostTo (rule : Rule)
    (hf : f ∈ Pass.lostTo rule ((r.pools s runtime).entering rule)) (hc : f.record = .content c) :
    f.cause.lacksApplication = false ∧ r.Blames s runtime c f.cause := by
  obtain ⟨i, x, w, hx, hw, rfl⟩ := Pass.mem_lostTo.1 hf
  cases rule with
  | name => exact ⟨rfl, .name hx hc hw⟩
  | path | default =>
    have hx : x.record = .content c := hc
    have hrivals := (Pass.rivals_of_beatenBy hw).2
    rw [hx] at hrivals
    cases hwr : w.record <;>
      simp [Record.rivals, Record.isDefault, Record.application?, hwr] at hrivals

theorem blames_of_reported (h : s.Keyed)
    (hdeclared : ∀ e ∈ Pass.candidates r.builtin s, e.record.Declared)
    (hf : f ∈ r.reported s runtime) (hc : f.record = .content c)
    (ht : (r.field s runtime).targets c ≠ []) :
    f.cause.lacksApplication = false ∧ r.Blames s runtime c f.cause := by
  rcases reported_cases hf with hf | ⟨rule, hf⟩ | hf
  · obtain ⟨e, he, hfault⟩ := List.mem_filterMap.1 hf
    obtain ⟨cause, hcause, rfl⟩ := Option.map_eq_some_iff.1 hfault
    have hown := (hdeclared e he).isFault_of_fault hcause
    have hfaulty : c.fault = some cause := (congrArg Record.fault hc).symm.trans hcause
    refine ⟨?_, .fault hfaulty hown⟩
    cases cause <;> first | rfl | cases hown
  · exact blames_of_lostTo rule hf hc
  · exact blames_of_field h hf hc ht

end Content

/-- Every pass over declared providers has a default to fall back to, but for the one case. -/
theorem run_holds_default (id : ProviderId) {s : Snapshot} (h : s.Keyed) (hs : s.Declared)
    (runtime : Properties) : HoldsDefault ⟨.builtin id⟩ s runtime where
  survives := by
    rw [← exists_default_iff]
    have hdeclared := candidates_declared hs (r := ⟨.builtin id⟩) (Application.builtin_declared id)
    have hname : ∀ a ∈ (field ⟨.builtin id⟩ s runtime).applications,
        (a.record.isDefault = true ↔ a.record.profile.name = Keys.defaultName) := by
      intro a ha
      obtain ⟨he, hf⟩ := Pass.sound_of_afterDefault (Pass.mem_applications.1 ha)
      exact (hdeclared _ he).isDefault_iff hf
    constructor
    · rintro ⟨a, ha, had⟩
      exact ⟨a, ha, had.imp_left (hname a ha).2⟩
    · rintro ⟨a, ha, had⟩
      exact ⟨a, ha, had.imp_left (hname a ha).1⟩
  found := Pass.Field.effective_isSome_iff.trans exists_default_iff
  content := by
    intro hleft kind f hf c hc hfalls
    have hdeclared := candidates_declared hs (r := ⟨.builtin id⟩) (Application.builtin_declared id)
    obtain ⟨i, hi⟩ := Option.isSome_iff_exists.1
      (Pass.Field.effective_isSome_iff.2 (exists_default_iff.2 hleft))
    exact blames_of_reported h hdeclared (mem_reported_of_failures hf) hc
      (Pass.Field.targets_ne_nil_of_fallsBack hfalls hi)

end Reconciler

namespace Shop

def porch : Record :=
  .ofProperties .application (.registered 14)
    (.ofList [(Keys.name, .text "porch"), (Keys.applicationBase, .text "/")]) none

def banner : Record :=
  .ofProperties .resource (.registered 15)
    (.ofList [(Keys.name, .text "porch"), (Keys.serviceRanking, .integer 10)]) none

def ruin : Snapshot := ⟨2, [⟨2, banner⟩, ⟨1, porch⟩]⟩

theorem ruin_admitted : Pass.admitted (Pass.candidates reconciler.builtin ruin) .empty =
    Pass.candidates reconciler.builtin ruin :=
  Pass.admitted_eq_self (by decide +kernel) (by decide +kernel)

/-- The porch wins the root and loses its name, and nothing is left for the banner to be attached
to. -/
theorem ruin_leaves_no_default : ruin.Keyed ∧ ruin.Declared ∧
    (reconciler.field ruin .empty).applications = [] ∧
    (reconciler.field ruin .empty).effective = none ∧
    (∃ c, banner = .content c ∧ c.select = none) ∧
    ⟨banner, .noApplication⟩ ∈ (reconciler.run ruin .empty).failures .resource := by
  have hdeclared : ruin.Declared := by
    simp only [Snapshot.Declared, ruin, List.forall_mem_cons]
    exact ⟨⟨_, _, _, _, rfl⟩, ⟨_, _, _, _, rfl⟩, by simp⟩
  have happlications : (reconciler.field ruin .empty).applications = [] := by
    rw [Reconciler.field, Pass.pools, ruin_admitted]
    decide +kernel
  refine ⟨by decide +kernel, hdeclared, happlications, ?_, ⟨_, rfl, by decide +kernel⟩, ?_⟩
  · rw [Pass.Field.effective, happlications]
    rfl
  · rw [Reconciler.failures_eq, Pass.sortFailures, List.mem_mergeSort, Reconciler.reported,
      Reconciler.verdicts, Reconciler.field, Pass.pools, ruin_admitted]
    decide +kernel

/-- The ledger fails for its name, and not for want of the built-in default, which is there. -/
theorem depot_holds_default : depot.Keyed ∧ depot.Declared ∧
    ¬ reconciler.LeavesNoDefault depot .empty ∧
    (reconciler.field depot .empty).effective.isSome = true ∧
    ∃ c, ledger = .content c ∧ c.fallsBack = true ∧
      reconciler.Blames depot .empty c (.nameTaken "log" .extension (.registered 2)) := by
  have hkeyed : depot.Keyed := by decide +kernel
  have hholds := Reconciler.run_holds_default (.generated 0) hkeyed depot_declared .empty
  have hbuiltin : ⟨0, .application reconciler.builtin⟩ ∈
      (reconciler.pools depot .empty).afterPath := by
    rw [Reconciler.pools, Pass.pools, depot_admitted]
    decide +kernel
  have hleft : ¬ reconciler.LeavesNoDefault depot .empty := by
    rintro ⟨hnone, -⟩
    exact absurd (hnone _ hbuiltin) (by decide +kernel)
  have hfalls : ∃ c, ledger = .content c ∧ c.fallsBack = true := ⟨_, rfl, by decide +kernel⟩
  obtain ⟨c, hc, hfalls⟩ := hfalls
  exact ⟨hkeyed, depot_declared, hleft, hholds.found.2 hleft, c, hc, hfalls,
    (hholds.content hleft .resource _ ledger_reported c hc hfalls).2⟩

end Shop

end Reconciliation
