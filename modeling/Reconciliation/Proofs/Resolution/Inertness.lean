import Reconciliation.Proofs.Resolution.Reporting

/-! # Providers that take no part

A pass without a faulty provider, or one that is meant for another runtime, comes to the same
outcome: the one thing that may be missing is its own failure.
-/
namespace Reconciliation

namespace Pass

def without (k : Key) (es : List (Stored Record)) : List (Stored Record) :=
  es.filter fun e => e.record.key != k

def failuresWithout (k : Key) (fs : List Failure) : List Failure :=
  fs.filter fun f => f.record.key != k

theorem rejected_without (k : Key) (es : List (Stored Record)) :
    rejected (without k es) = failuresWithout k (rejected es) := by
  induction es with
  | nil => rfl
  | cons e es ih =>
    by_cases hk : e.record.key = k
    · have hskip : without k (e :: es) = without k es := by simp [without, hk]
      rw [hskip, ih]
      cases hf : e.record.fault <;> simp [rejected, failuresWithout, hf, hk]
    · have htake : without k (e :: es) = e :: without k es := by simp [without, hk]
      rw [htake]
      cases hf : e.record.fault <;> simp_all [rejected, failuresWithout]

theorem admitted_without (k : Key) (es : List (Stored Record)) (runtime : Properties) :
    admitted (without k es) runtime = without k (admitted es runtime) := by
  have hcmp : Std.TransCmp fun a b : Stored Record => a.record.compare b.record :=
    transCmp_view Record.compare Stored.record
  have hswap : (without k es).filter (fun e =>
      e.record.fault.isNone && e.record.profile.suits runtime) =
        without k (es.filter fun e => e.record.fault.isNone && e.record.profile.suits runtime) := by
    simp only [without, List.filter_filter]
    refine List.filter_congr fun e _ => ?_
    rw [Bool.and_comm]
  rw [admitted, hswap, sortPool]
  exact (filter_mergeSort _ _).symm

theorem mem_admitted {es : List (Stored Record)} {runtime : Properties} {e : Stored Record} :
    e ∈ admitted es runtime ↔
      e ∈ es ∧ e.record.fault = none ∧ e.record.profile.suits runtime = true := by
  simp [admitted, sortPool]

theorem without_eq_self {k : Key} {es : List (Stored Record)}
    (h : ∀ e ∈ es, e.record.key ≠ k) : without k es = es := by
  refine List.filter_eq_self.2 fun e he => ?_
  simpa using h e he

theorem failuresWithout_eq_self {k : Key} {fs : List Failure}
    (h : ∀ f ∈ fs, f.record.key ≠ k) : failuresWithout k fs = fs := by
  refine List.filter_eq_self.2 fun f hf => ?_
  simpa using h f hf

end Pass

namespace Reconciler

variable {r : Reconciler} {s : Snapshot} {runtime : Properties}

theorem candidates_without {k : Key} (hk : (Record.application r.builtin).key ≠ k) (n : Nat) :
    Pass.candidates r.builtin ⟨n, (s.erase k).entries⟩ =
      Pass.without k (Pass.candidates r.builtin s) := by
  simp [Pass.candidates, Pass.without, Snapshot.erase, hk]

/-- Where the passes over two snapshots meet the same failures, those under one key aside, they
report the same failures, those under that key aside. -/
theorem failures_without {t : Snapshot} {k : Key}
    (h : r.reported t runtime = Pass.failuresWithout k (r.reported s runtime)) (kind : Kind) :
    (r.run t runtime).failures kind =
      Pass.failuresWithout k ((r.run s runtime).failures kind) := by
  have hlast : Pass.lastOfEachKey (r.reported t runtime) =
      Pass.failuresWithout k (Pass.lastOfEachKey (r.reported s runtime)) := by
    rw [h]
    exact Pass.lastOfEach_filter _ (fun key => key != k) _
  rw [failures_eq, failures_eq, hlast, Pass.failuresWithout, Pass.failuresWithout,
    Pass.sortFailures_filter, List.filter_filter, List.filter_filter]
  congr 1
  refine List.filter_congr fun f _ => ?_
  rw [Bool.and_comm]

theorem Fits.without (h : r.Fits s) (k : Key) (n : Nat) :
    r.Fits ⟨n, (s.erase k).entries⟩ := by
  constructor
  · exact (List.filter_sublist.map _).nodup h.keyed
  · intro e he
    exact h.builtin_free e (List.mem_filter.1 he).1

section Unfit

variable {x : Stored Record}

theorem Fits.key_ne_builtin (h : r.Fits s) (hx : x ∈ s.entries) :
    (Record.application r.builtin).key ≠ x.record.key :=
  (h.builtin_free x hx).symm

/-- Nobody else has the key of a provider that is not admitted, so nobody in the pool has it. -/
theorem Fits.unfit_not_admitted (h : r.Fits s) (hx : x ∈ s.entries)
    (hunfit : x.record.fault.isSome = true ∨ x.record.profile.suits runtime = false) :
    ∀ e ∈ Pass.admitted (Pass.candidates r.builtin s) runtime, e.record.key ≠ x.record.key := by
  intro e he hkey
  obtain ⟨hmem, hsound, hsuits⟩ := Pass.mem_admitted.1 he
  have hxc : x ∈ Pass.candidates r.builtin s := List.mem_append_left _ hx
  obtain rfl := List.inj_on_of_nodup_map h.candidates_nodup hmem hxc hkey
  rcases hunfit with hf | hf
  · simp [hsound] at hf
  · simp [hsuits] at hf

theorem Fits.pools_without_unfit (h : r.Fits s) (hx : x ∈ s.entries)
    (hunfit : x.record.fault.isSome = true ∨ x.record.profile.suits runtime = false) (n : Nat) :
    Pass.pools (Pass.candidates r.builtin ⟨n, (s.erase x.record.key).entries⟩) runtime =
      Pass.pools (Pass.candidates r.builtin s) runtime := by
  have hadmitted : Pass.admitted
      (Pass.candidates r.builtin ⟨n, (s.erase x.record.key).entries⟩) runtime =
        Pass.admitted (Pass.candidates r.builtin s) runtime := by
    rw [candidates_without (h.key_ne_builtin hx), Pass.admitted_without]
    exact Pass.without_eq_self (h.unfit_not_admitted hx hunfit)
  simp only [Pass.pools, hadmitted]

theorem Fits.field_without_unfit (h : r.Fits s) (hx : x ∈ s.entries)
    (hunfit : x.record.fault.isSome = true ∨ x.record.profile.suits runtime = false) (n : Nat) :
    r.field ⟨n, (s.erase x.record.key).entries⟩ runtime = r.field s runtime := by
  rw [field, field, h.pools_without_unfit hx hunfit]

/-- Failures that are met after admission do not bear the key of one that was not admitted: they are
met without the provider too, and there nobody has its key. -/
theorem Fits.reported_without_unfit (h : r.Fits s) (hx : x ∈ s.entries)
    (hunfit : x.record.fault.isSome = true ∨ x.record.profile.suits runtime = false) (n : Nat) :
    r.reported ⟨n, (s.erase x.record.key).entries⟩ runtime =
      Pass.failuresWithout x.record.key (r.reported s runtime) := by
  obtain ⟨later, hlater⟩ : ∃ later, ∀ es : List (Stored Record), Pass.allFailures es
      (Pass.pools (Pass.candidates r.builtin s) runtime) (r.field s runtime)
        ((r.field s runtime).verdicts runtime) = Pass.rejected es ++ later :=
    ⟨_, fun es => by simp only [Pass.allFailures, List.append_assoc]; rfl⟩
  have hs : r.reported s runtime = Pass.rejected (Pass.candidates r.builtin s) ++ later :=
    hlater _
  have ht : r.reported ⟨n, (s.erase x.record.key).entries⟩ runtime = Pass.rejected
      (Pass.without x.record.key (Pass.candidates r.builtin s)) ++ later := by
    rw [reported, verdicts, h.pools_without_unfit hx hunfit, h.field_without_unfit hx hunfit,
      hlater, candidates_without (h.key_ne_builtin hx)]
  have hnobody : ∀ f ∈ later, f.record.key ≠ x.record.key := by
    intro f hf hkey
    have hrecord : f.record ∈ (Pass.candidates r.builtin
        ⟨n, (s.erase x.record.key).entries⟩).map Stored.record := by
      refine ((h.without x.record.key n).conserves runtime).mem_iff.2 ?_
      rw [ht]
      exact List.mem_append_left _ (List.mem_map_of_mem (List.mem_append_right _ hf))
    obtain ⟨e, he, hef⟩ := List.mem_map.1 hrecord
    rw [candidates_without (h.key_ne_builtin hx)] at he
    have hne := (List.mem_filter.1 he).2
    rw [hef, hkey] at hne
    simp at hne
  calc r.reported ⟨n, (s.erase x.record.key).entries⟩ runtime
      = Pass.failuresWithout x.record.key (Pass.rejected (Pass.candidates r.builtin s)) ++ later := by
        rw [ht, Pass.rejected_without]
    _ = Pass.failuresWithout x.record.key (Pass.rejected (Pass.candidates r.builtin s)) ++
          Pass.failuresWithout x.record.key later := by
        rw [Pass.failuresWithout_eq_self hnobody]
    _ = Pass.failuresWithout x.record.key (r.reported s runtime) := by
        rw [hs]
        exact (List.filter_append ..).symm

/-- A provider that is not admitted has a failure of its own just if it is at fault. -/
theorem Fits.failures_of_unfit (h : r.Fits s) (hx : x ∈ s.entries)
    (hunfit : x.record.fault.isSome = true ∨ x.record.profile.suits runtime = false) :
    ((r.run s runtime).failures x.record.kind).filter (fun f => f.record.key == x.record.key) =
      (x.record.fault.map fun cause => Failure.mk x.record cause).toList := by
  have hxc : x ∈ Pass.candidates r.builtin s := List.mem_append_left _ hx
  cases hf : x.record.fault with
  | some cause =>
    have hrejected : Failure.mk x.record cause ∈ r.reported s runtime := by
      simp only [reported, Pass.allFailures, List.append_assoc]
      exact List.mem_append_left _ (List.mem_filterMap.2 ⟨x, hxc, by simp [hf]⟩)
    exact failures_under_of_reported h.keyed hrejected (h.not_sharesBuiltin _)
  | none =>
    have hunsuited : x.record.key ∈ (Pass.unsuited (Pass.candidates r.builtin s) runtime).map
        fun e => e.record.key :=
      (mem_unsuited_iff h runtime hxc).2 ⟨hf, by simpa [hf] using hunfit⟩
    have hnodup := (h.keys_conserved runtime).nodup_iff.1 h.candidates_nodup
    have hnot : x.record.key ∉ (r.reported s runtime).map fun f => f.record.key := fun hm =>
      (List.nodup_append.1 hnodup).2.2 _ hm _ (List.mem_append_left _ hunsuited) rfl
    have hunder := failures_under r s runtime x.record.key
    have hnone : ((r.reported s runtime).filter fun f => f.record.key == x.record.key) = [] := by
      refine List.filter_eq_nil_iff.2 fun f hfm hkey => hnot ?_
      exact List.mem_map.2 ⟨f, hfm, beq_iff_eq.1 hkey⟩
    rw [hnone] at hunder
    exact hunder

/-- Without a provider that is faulty or meant for another runtime a pass deploys the same
applications with the same content and reports the same failures, but for the provider's own. -/
theorem run_ignores_unfit (r : Reconciler) (s : Snapshot) (runtime : Properties) (h : r.Fits s)
    (x : Stored Record) (hx : x ∈ s.entries)
    (hunfit : x.record.fault.isSome = true ∨ x.record.profile.suits runtime = false) (n : Nat) :
    (r.run ⟨n, (s.erase x.record.key).entries⟩ runtime).applications =
        (r.run s runtime).applications ∧
      (r.run ⟨n, (s.erase x.record.key).entries⟩ runtime).defaultApplication =
        (r.run s runtime).defaultApplication ∧
      (∀ kind, (r.run ⟨n, (s.erase x.record.key).entries⟩ runtime).failures kind =
        ((r.run s runtime).failures kind).filter fun f => f.record.key != x.record.key) ∧
      ((r.run s runtime).failures x.record.kind).filter (fun f => f.record.key == x.record.key) =
        (x.record.fault.map fun cause => Failure.mk x.record cause).toList := by
  have hfield : r.field ⟨n, (s.erase x.record.key).entries⟩ runtime = r.field s runtime :=
    h.field_without_unfit hx hunfit n
  have haccepted : r.accepted ⟨n, (s.erase x.record.key).entries⟩ runtime =
      r.accepted s runtime := by
    rw [accepted, accepted, verdicts, verdicts, hfield]
  have hdefault : r.defaultId? ⟨n, (s.erase x.record.key).entries⟩ runtime =
      r.defaultId? s runtime := by
    rw [defaultId?, defaultId?, hfield]
  refine ⟨?_, ?_, failures_without (h.reported_without_unfit hx hunfit n),
    h.failures_of_unfit hx hunfit⟩
  · rw [applications_eq, applications_eq, haccepted]
  · rw [defaultApplication_eq, defaultApplication_eq, hdefault, haccepted]

end Unfit

end Reconciler

end Reconciliation
