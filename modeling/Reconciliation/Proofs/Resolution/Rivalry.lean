import Reconciliation.Proofs.Resolution.Reporting

/-! # Who loses to whom

A rule goes through its pool once and keeps the winners in a table. What comes of it can be told
without the table: an entry loses just if a rival stands before it, and it loses to the first one.
-/
namespace Reconciliation

def Record.rivals (rule : Rule) (w x : Record) : Bool :=
  match rule with
  | .path =>
    match w.application?, x.application? with
    | some a, some b => a.base == b.base
    | _, _ => false
  | .name => !w.isDefault && !x.isDefault && w.name == x.name
  | .default => w.isDefault && x.isDefault

/-- The first rival among those before an entry, to which the entry loses. Entries are seen as
records. -/
def Record.beatenBy {α : Type} (view : α → Record) (rule : Rule) (before : List α) (x : α) :
    Option α :=
  (before.find? fun w => Record.rivals rule (view w) (view x)).filter fun w =>
    rule != .name || (view w).id != (view x).id

namespace Pass

/-- The first rival among those before an entry, to which the entry loses. -/
def beatenBy (rule : Rule) (before : List (Stored Record)) (x : Stored Record) :
    Option (Stored Record) :=
  (before.find? fun w => Record.rivals rule w.record x.record).filter fun w =>
    rule != .name || w.record.id != x.record.id

def Pools.entering (p : Pools) : Rule → List (Stored Record)
  | .path => p.admitted
  | .name => p.afterPath
  | .default => p.afterName

theorem beatenBy_eq_some_iff {rule : Rule} {before : List (Stored Record)} {w x : Stored Record} :
    beatenBy rule before x = some w ↔
      (∃ front back, before = front ++ w :: back ∧ Record.rivals rule w.record x.record = true ∧
        ∀ e ∈ front, Record.rivals rule e.record x.record = false) ∧
      (rule = .name → w.record.id ≠ x.record.id) := by
  have hspared : (rule != .name || w.record.id != x.record.id) = true ↔
      (rule = .name → w.record.id ≠ x.record.id) := by
    by_cases hr : rule = .name <;> simp [hr]
  rw [beatenBy, Option.filter_eq_some_iff, List.find?_eq_some_iff_append, hspared]
  simp only [Bool.not_eq_true']
  refine and_congr_left fun _ => ?_
  constructor
  · rintro ⟨hw, front, back, rfl, hfirst⟩
    exact ⟨front, back, rfl, hw, hfirst⟩
  · rintro ⟨front, back, rfl, hw, hfirst⟩
    exact ⟨hw, front, back, rfl, hfirst⟩

theorem stake_beq_of_stake {rule : Rule} {x : Record} {k : String}
    (hk : (Record.contest rule).stake x = some k) (w : Record) :
    ((Record.contest rule).stake w == some k) = Record.rivals rule w x := by
  -- Each rule has its own stake: the path, the name, and the one name of all defaults.
  cases rule with
  | path =>
    cases x with
    | content _ => cases hk
    | application b =>
      obtain rfl := Option.some.inj hk
      cases w with
      | content _ => rfl
      | application a => rfl
  | name =>
    cases hx : x.isDefault
    · have hkx : x.name = k := by
        simpa [Record.contest, Contest.through, nameContest, Record.nameClaim, hx] using hk
      subst hkx
      cases hw : w.isDefault <;>
        simp [Record.contest, Contest.through, nameContest, Record.nameClaim, Record.rivals, hx, hw]
    · simp [Record.contest, Contest.through, nameContest, Record.nameClaim, hx] at hk
  | default =>
    cases x with
    | content _ => cases hk
    | application b =>
      cases hb : b.isDefault
      · simp [Record.contest, Record.amongApplications, Record.application?, defaultContest, hb] at hk
      · have hkb : Keys.defaultName = k := by
          simpa [Record.contest, Record.amongApplications, Record.application?, defaultContest, hb]
            using hk
        subst hkb
        cases w with
        | content _ => rfl
        | application a =>
          cases ha : a.isDefault <;>
            simp [Record.contest, Record.amongApplications, Record.application?, defaultContest,
              Record.rivals, Record.isDefault, ha, hb]

theorem rivals_of_no_stake {rule : Rule} {x : Record} (hx : (Record.contest rule).stake x = none)
    (w : Record) : Record.rivals rule w x = false := by
  cases rule with
  | path =>
    cases x with
    | content _ => cases w <;> rfl
    | application b => cases hx
  | name =>
    cases hd : x.isDefault <;>
      simp_all [Record.contest, Contest.through, nameContest, Record.nameClaim, Record.rivals]
  | default =>
    cases x with
    | content _ => simp [Record.rivals, Record.isDefault]
    | application b =>
      cases hb : b.isDefault <;>
        simp_all [Record.contest, Record.amongApplications, Record.application?, defaultContest,
          Record.rivals, Record.isDefault]

/-- Only the rule of names spares anybody. -/
theorem spares_eq (rule : Rule) (w x : Record) :
    (!(Record.contest rule).spares w x) = (rule != .name || w.id != x.id) := by
  cases rule with
  | name => rfl
  | path | default =>
    simp only [Record.contest, Record.amongApplications]
    split <;> rfl

section Through

variable {α : Type} (view : α → Record) (rule : Rule)

theorem beaten_through (before : List α) (x : α) :
    ((Record.contest rule).through view).beaten before x = Record.beatenBy view rule before x := by
  have hholder : (((Record.contest rule).through view).stake x).bind
      (((Record.contest rule).through view).holder [] before) =
        before.find? fun w => Record.rivals rule (view w) (view x) := by
    cases hs : ((Record.contest rule).through view).stake x with
    | none =>
      have hnobody : ∀ w ∈ before, ¬ Record.rivals rule (view w) (view x) = true := by
        intro w _
        simp [rivals_of_no_stake hs]
      rw [List.find?_eq_none.2 hnobody]
      rfl
    | some k =>
      have hrivals : (fun w => ((Record.contest rule).through view).stake w == some k) =
          fun w => Record.rivals rule (view w) (view x) :=
        funext fun w => stake_beq_of_stake hs (view w)
      simp [Contest.holder, hrivals]
  have hspares : (fun w => !((Record.contest rule).through view).spares w x) = fun w =>
      rule != .name || (view w).id != (view x).id :=
    funext fun w => spares_eq rule (view w) (view x)
  rw [Contest.beaten, Contest.beatenAfter, hholder, hspares, Record.beatenBy]

theorem survivors_through (pool : List α) : ((Record.contest rule).through view).survivors pool =
    pool.zipIdx.filterMap fun p =>
      if (Record.beatenBy view rule (pool.take p.2) p.1).isNone then some p.1 else none := by
  rw [Contest.survivors, Contest.verdicts_eq_map_zipIdx, List.filterMap_map]
  simp only [Function.comp_def, beaten_through]

theorem losses_through (pool : List α) : ((Record.contest rule).through view).losses pool =
    pool.zipIdx.filterMap fun p =>
      (Record.beatenBy view rule (pool.take p.2) p.1).map fun w => (p.1, w) := by
  rw [Contest.losses, Contest.verdicts_eq_map_zipIdx, List.filterMap_map]
  simp only [Function.comp_def, beaten_through]

theorem unbeaten_through {pool : List α} {i : Nat} {w x : α}
    (h : Record.beatenBy view rule (pool.take i) x = some w) :
    ∃ j < i, pool[j]? = some w ∧ Record.beatenBy view rule (pool.take j) w = none := by
  rw [← beaten_through] at h
  simpa only [beaten_through] using Contest.unbeaten_of_beaten h

end Through

theorem afterRule_eq (rule : Rule) (pool : List (Stored Record)) :
    afterRule rule pool = pool.zipIdx.filterMap fun p =>
      if (beatenBy rule (pool.take p.2) p.1).isNone then some p.1 else none :=
  survivors_through Stored.record rule pool

theorem lostTo_eq (rule : Rule) (pool : List (Stored Record)) :
    lostTo rule pool = pool.zipIdx.filterMap fun p =>
      (beatenBy rule (pool.take p.2) p.1).map fun w =>
        ⟨p.1.record, Record.causeOf rule w.record⟩ := by
  rw [lostTo, storedContest, losses_through, List.map_filterMap]
  simp only [Option.map_map]
  rfl

theorem unbeaten_winner {rule : Rule} {pool : List (Stored Record)} {i : Nat}
    {w x : Stored Record} (h : beatenBy rule (pool.take i) x = some w) :
    ∃ j < i, pool[j]? = some w ∧ beatenBy rule (pool.take j) w = none :=
  unbeaten_through Stored.record rule h

theorem rivals_of_beatenBy {rule : Rule} {before : List (Stored Record)} {w x : Stored Record}
    (h : beatenBy rule before x = some w) :
    w ∈ before ∧ Record.rivals rule w.record x.record = true := by
  obtain ⟨⟨front, back, rfl, hrivals, -⟩, -⟩ := beatenBy_eq_some_iff.1 h
  exact ⟨by simp, hrivals⟩

section Leaving

variable {rule : Rule} {pool : List (Stored Record)} {x : Stored Record}

theorem mem_afterRule_iff : x ∈ afterRule rule pool ↔
    ∃ i, pool[i]? = some x ∧ beatenBy rule (pool.take i) x = none := by
  simp only [afterRule_eq, List.mem_filterMap, Prod.exists, List.mem_zipIdx_iff_getElem?]
  constructor
  · rintro ⟨y, i, hy, h⟩
    split at h
    · rename_i hnone
      obtain rfl := Option.some.inj h
      exact ⟨i, hy, Option.isNone_iff_eq_none.1 hnone⟩
    · cases h
  · rintro ⟨i, hx, hnone⟩
    exact ⟨x, i, hx, by simp [hnone]⟩

theorem mem_afterRule_or_rival (rule : Rule) (hx : x ∈ pool) : x ∈ afterRule rule pool ∨
    ∃ w ∈ afterRule rule pool, Record.rivals rule w.record x.record = true := by
  obtain ⟨i, hi⟩ := List.mem_iff_getElem?.1 hx
  cases hb : beatenBy rule (pool.take i) x with
  | none => exact Or.inl (mem_afterRule_iff.2 ⟨i, hi, hb⟩)
  | some w =>
    obtain ⟨j, -, hj, hunbeaten⟩ := unbeaten_winner hb
    exact Or.inr ⟨w, mem_afterRule_iff.2 ⟨j, hj, hunbeaten⟩, (rivals_of_beatenBy hb).2⟩

theorem mem_afterRule_of_unrivaled (hx : x ∈ pool)
    (hnone : ∀ w ∈ pool, Record.rivals rule w.record x.record = false) :
    x ∈ afterRule rule pool := by
  refine (mem_afterRule_or_rival rule hx).resolve_right ?_
  rintro ⟨w, hw, hrivals⟩
  rw [hnone w ((afterRule_sublist rule pool).subset hw)] at hrivals
  cases hrivals

end Leaving

theorem mem_lostTo {rule : Rule} {pool : List (Stored Record)} {f : Failure} :
    f ∈ lostTo rule pool ↔ ∃ i x w, pool[i]? = some x ∧
      beatenBy rule (pool.take i) x = some w ∧ f = ⟨x.record, Record.causeOf rule w.record⟩ := by
  simp only [lostTo_eq, List.mem_filterMap, Prod.exists, List.mem_zipIdx_iff_getElem?,
    Option.map_eq_some_iff]
  constructor
  · rintro ⟨x, i, hx, w, hw, rfl⟩
    exact ⟨i, x, w, hx, hw, rfl⟩
  · rintro ⟨i, x, w, hx, hw, rfl⟩
    exact ⟨x, i, hx, w, hw, rfl⟩

def yields (cause : Cause) : Bool :=
  cause.reason == .shadowed || cause.reason == .duplicateName

theorem yields_causeOf (rule : Rule) (w : Record) : (Record.causeOf rule w).reason = rule.reason := by
  cases rule <;> rfl

theorem not_yields_of_detached {v : Verdict} {d : Stored Content × Cause} (h : d ∈ v.detached) :
    yields d.2 = false := by
  rcases Verdict.mem_detached h with h | h
  · obtain ⟨r, -, hd⟩ := List.mem_filterMap.1 h
    obtain ⟨_, -, rfl⟩ := Option.map_eq_some_iff.1 hd
    rfl
  · obtain ⟨c, -, rfl⟩ := List.mem_map.1 h
    cases c.record.kind <;> rfl

theorem not_yields_of_field {f : Field} {vs : List Verdict} {fl : Failure}
    (h : fl ∈ f.failures vs) : yields fl.cause = false := by
  rcases List.mem_append.1 h with h | h
  · obtain ⟨v, -, hv⟩ := List.mem_filterMap.1 h
    obtain ⟨sel, -, rfl⟩ := Option.map_eq_some_iff.1 hv
    rfl
  · obtain ⟨c, -, hc⟩ := List.mem_filterMap.1 h
    unfold Field.contentFailure? at hc
    dsimp only at hc
    split at hc
    · obtain rfl := Option.some.inj hc
      cases c.record.select <;> rfl
    · split at hc
      · cases hc
      · obtain ⟨d, hd, rfl⟩ := Option.map_eq_some_iff.1 hc
        have hmem := List.mem_reverse.1 (List.mem_of_find?_eq_some hd)
        obtain ⟨v, -, hv⟩ := List.mem_flatMap.1 hmem
        exact not_yields_of_detached hv

end Pass

namespace Reconciler

def pools (r : Reconciler) (s : Snapshot) (runtime : Properties) : Pass.Pools :=
  Pass.pools (Pass.candidates r.builtin s) runtime

variable {r : Reconciler} {s : Snapshot} {runtime : Properties}

/-- Failures are met on admission, by the rules, and in the field. -/
theorem reported_cases {f : Failure} (h : f ∈ r.reported s runtime) :
    f ∈ Pass.rejected (Pass.candidates r.builtin s) ∨
      (∃ rule, f ∈ Pass.lostTo rule ((r.pools s runtime).entering rule)) ∨
        f ∈ (r.field s runtime).failures (r.verdicts s runtime) := by
  simp only [reported, Pass.allFailures, List.mem_append] at h
  rcases h with (((h | h) | h) | h) | h
  · exact Or.inl h
  · exact Or.inr (Or.inl ⟨.path, h⟩)
  · exact Or.inr (Or.inl ⟨.name, h⟩)
  · exact Or.inr (Or.inl ⟨.default, h⟩)
  · exact Or.inr (Or.inr h)

end Reconciler

end Reconciliation
