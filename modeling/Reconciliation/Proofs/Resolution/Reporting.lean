import Reconciliation.Proofs.Resolution.Determinism
import Reconciliation.Proofs.Resolution.Field

/-! # Which failures are reported

Of the failures that a pass meets under one key the last one is reported. Under most keys there is
one at most: only the built-in default may share its key with a stored application.
-/
namespace Reconciliation

namespace Pass

section LastOfEach

variable {α κ : Type} [DecidableEq κ] (key : α → κ)

theorem lastOfEach_sublist (xs : List α) : (lastOfEach key xs).Sublist xs := by
  induction xs with
  | nil => exact List.Sublist.slnil
  | cons x xs ih =>
    unfold lastOfEach
    split
    · exact ih.cons x
    · exact ih.cons_cons x

theorem lastOfEach_under (xs : List α) (k : κ) :
    (lastOfEach key xs).filter (fun x => key x == k) =
      (xs.filter fun x => key x == k).getLast?.toList := by
  induction xs with
  | nil => rfl
  | cons x xs ih =>
    by_cases hx : key x = k
    · subst hx
      cases hlater : xs.filter fun y => key y == key x with
      | nil =>
        have hnone : (xs.any fun y => key y == key x) = false := by
          rw [List.any_eq_false]
          exact fun y hy => List.filter_eq_nil_iff.1 hlater y hy
        rw [hlater] at ih
        simp [lastOfEach, hnone, hlater, ih]
      | cons y ys =>
        have hmem : y ∈ xs.filter fun y => key y == key x := by simp [hlater]
        have hany : (xs.any fun y => key y == key x) = true :=
          List.any_eq_true.2 ⟨y, List.mem_filter.1 hmem⟩
        rw [lastOfEach, if_pos hany, ih, List.filter_cons_of_pos (by simp), hlater,
          List.getLast?_cons_cons]
    · rw [lastOfEach]
      split
      · simp [hx, ih]
      · simp [hx, ih]

theorem lastOfEach_filter (p : κ → Bool) (xs : List α) :
    lastOfEach key (xs.filter fun x => p (key x)) =
      (lastOfEach key xs).filter fun x => p (key x) := by
  induction xs with
  | nil => rfl
  | cons x xs ih =>
    by_cases hx : p (key x) = true
    · have hany : ((xs.filter fun y => p (key y)).any fun y => key y == key x) =
          xs.any fun y => key y == key x := by
        rw [List.any_filter]
        congr 1
        funext y
        by_cases hy : key y = key x
        · simp [hy, hx]
        · simp [hy]
      rw [List.filter_cons_of_pos (by exact hx), lastOfEach, lastOfEach, hany]
      split
      · exact ih
      · simp [hx, ih]
    · rw [List.filter_cons_of_neg (by exact hx), ih, lastOfEach]
      split
      · rfl
      · simp [hx]

theorem lastOfEach_map {β : Type} (g : β → α) (ys : List β) :
    lastOfEach key (ys.map g) = (lastOfEach (fun y => key (g y)) ys).map g := by
  induction ys with
  | nil => rfl
  | cons y ys ih =>
    rw [List.map_cons, lastOfEach, lastOfEach, List.any_map, ih]
    split <;> rename_i h
    · rw [if_pos (by exact h)]
    · rw [if_neg (by exact h), List.map_cons]

end LastOfEach

theorem sortFailures_filter (p : Failure → Bool) (fs : List Failure) :
    (sortFailures fs).filter p = sortFailures (fs.filter p) := by
  have hcmp : Std.TransCmp fun a b : Failure => a.record.profile.compare b.record.profile :=
    transCmp_view Profile.compare fun f : Failure => f.record.profile
  exact filter_mergeSort p fs

theorem sortFailures_toList (o : Option Failure) : sortFailures o.toList = o.toList := by
  cases o <;> simp [sortFailures]

end Pass

namespace Reconciler

variable {r : Reconciler} {s : Snapshot} {runtime : Properties}

theorem failures_eq (r : Reconciler) (s : Snapshot) (runtime : Properties) (kind : Kind) :
    (r.run s runtime).failures kind = Pass.sortFailures
      ((Pass.lastOfEachKey (r.reported s runtime)).filter fun f => f.record.kind == kind) := by
  cases kind <;> rfl

theorem applications_eq (r : Reconciler) (s : Snapshot) (runtime : Properties) :
    (r.run s runtime).applications =
      (r.accepted s runtime).mergeSort fun a b => decide (a.base ≤ b.base) := rfl

/-- The id of the application that acts as the default, deployed or not. -/
def defaultId? (r : Reconciler) (s : Snapshot) (runtime : Properties) : Option ProviderId :=
  ((r.field s runtime).effective.bind fun i => (r.field s runtime).applications[i]?).map
    fun a => a.record.profile.id

theorem defaultApplication_eq (r : Reconciler) (s : Snapshot) (runtime : Properties) :
    (r.run s runtime).defaultApplication = (r.defaultId? s runtime).filter fun id =>
      (r.accepted s runtime).any fun a => a.id == id := rfl

theorem kind_of_failures {kind : Kind} {f : Failure} (h : f ∈ (r.run s runtime).failures kind) :
    f.record.kind = kind := by
  rw [failures_eq, Pass.sortFailures, List.mem_mergeSort] at h
  exact beq_iff_eq.1 (List.mem_filter.1 h).2

theorem mem_reported_of_failures {kind : Kind} {f : Failure}
    (h : f ∈ (r.run s runtime).failures kind) : f ∈ r.reported s runtime := by
  rw [failures_eq, Pass.sortFailures, List.mem_mergeSort] at h
  exact (Pass.lastOfEach_sublist _ _).subset (List.mem_filter.1 h).1

/-- Under every key the failure that was met last is reported, and no other. -/
theorem failures_under (r : Reconciler) (s : Snapshot) (runtime : Properties) (k : Key) :
    ((r.run s runtime).failures k.kind).filter (fun f => f.record.key == k) =
      ((r.reported s runtime).filter fun f => f.record.key == k).getLast?.toList := by
  have hkind : ((Pass.lastOfEachKey (r.reported s runtime)).filter fun f =>
      f.record.key == k && f.record.kind == k.kind) =
        (Pass.lastOfEachKey (r.reported s runtime)).filter fun f => f.record.key == k := by
    refine List.filter_congr fun f _ => ?_
    by_cases hf : f.record.key = k
    · subst hf
      simp [Record.key]
    · simp [hf]
  rw [failures_eq, Pass.sortFailures_filter, List.filter_filter, hkind, Pass.lastOfEachKey,
    Pass.lastOfEach_under, Pass.sortFailures_toList]

/-- A stored application goes by the key of the built-in default. -/
def SharesBuiltin (r : Reconciler) (s : Snapshot) (k : Key) : Prop :=
  k = (Record.application r.builtin).key ∧ ∃ e ∈ s.entries, e.record.key = k

theorem Fits.not_sharesBuiltin (h : r.Fits s) (k : Key) : ¬ r.SharesBuiltin s k := by
  rintro ⟨rfl, e, he, hk⟩
  exact h.builtin_free e he hk

theorem candidates_count_le (h : s.Keyed) {k : Key} (hk : ¬ r.SharesBuiltin s k) :
    ((Pass.candidates r.builtin s).map fun e => e.record.key).count k ≤ 1 := by
  have hstored : (s.entries.map fun e => e.record.key).count k ≤ 1 :=
    List.nodup_iff_count_le_one.1 h k
  rw [Pass.candidates, List.map_append, List.count_append]
  by_cases hb : k = (Record.application r.builtin).key
  · have hfree : (s.entries.map fun e => e.record.key).count k = 0 := by
      rw [List.count_eq_zero, List.mem_map]
      rintro ⟨e, he, hek⟩
      exact hk ⟨hb, e, he, hek⟩
    have hone : ([⟨0, .application r.builtin⟩].map fun e : Stored Record => e.record.key).count k ≤
        1 := List.count_le_length
    omega
  · have hnone : ([⟨0, .application r.builtin⟩].map fun e : Stored Record => e.record.key).count k =
        0 := by
      rw [List.count_eq_zero]
      simpa using hb
    omega

theorem reported_count_le (h : s.Keyed) (runtime : Properties) {k : Key}
    (hk : ¬ r.SharesBuiltin s k) :
    ((r.reported s runtime).map fun f => f.record.key).count k ≤ 1 := by
  have hperm := ((conserves_of_distinct (field_distinct (r := r) h runtime)).map Record.key).count_eq k
  simp only [List.map_append, List.map_map, List.count_append] at hperm
  have hall := candidates_count_le h hk
  have hkeys : (List.map (Record.key ∘ Stored.record) (Pass.candidates r.builtin s)).count k =
      ((Pass.candidates r.builtin s).map fun e => e.record.key).count k := rfl
  have hreported : (List.map (Record.key ∘ Failure.record) (r.reported s runtime)).count k =
      ((r.reported s runtime).map fun f => f.record.key).count k := rfl
  omega

theorem filter_eq_singleton {α β : Type} [DecidableEq β] {g : α → β} {xs : List α} {x : α}
    (hx : x ∈ xs) (hone : (xs.map g).count (g x) ≤ 1) : (xs.filter fun y => g y == g x) = [x] := by
  have hmem : x ∈ xs.filter fun y => g y == g x := List.mem_filter.2 ⟨hx, by simp⟩
  have hlen : (xs.filter fun y => g y == g x).length ≤ 1 := by
    rw [← List.countP_eq_length_filter]
    rwa [List.count, List.countP_map] at hone
  match hl : xs.filter fun y => g y == g x with
  | [] => simp [hl] at hmem
  | [y] => simpa [hl, eq_comm] using hmem
  | _ :: _ :: _ => simp [hl] at hlen

theorem failures_under_of_reported (h : s.Keyed) {f : Failure} (hf : f ∈ r.reported s runtime)
    (hk : ¬ r.SharesBuiltin s f.record.key) :
    ((r.run s runtime).failures f.record.kind).filter (fun g => g.record.key == f.record.key) =
      [f] := by
  have hunder := failures_under r s runtime f.record.key
  rw [filter_eq_singleton hf (reported_count_le h runtime hk)] at hunder
  exact hunder

end Reconciler

end Reconciliation
