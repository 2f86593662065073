import Reconciliation.Proofs.Resolution.Inertness
import Reconciliation.Proofs.Resolution.Shelving

/-! # Failures that overwrite one another

A provider that is not admitted fails under its shelf, and one that fails later under its kind. Off
the shelves of their kinds two providers may fail under one key, and then the later failure is told.
-/
namespace Reconciliation

theorem Key.bne_eq (k l : Key) : (k != l) = (k.kind != l.kind || k.id != l.id) := by
  obtain ⟨kind, id⟩ := k
  obtain ⟨kind', id'⟩ := l
  rw [Bool.eq_iff_iff, bne_iff_ne, Bool.or_eq_true, bne_iff_ne, bne_iff_ne, ← not_and_or, Ne,
    Key.mk.injEq]

namespace Pass

theorem lastOfEach_append_of_later {α κ : Type} [DecidableEq κ] (key : α → κ) {ys : List α} {k : κ}
    (hk : ∃ y ∈ ys, key y = k) (xs : List α) :
    lastOfEach key ((xs.filter fun x => key x != k) ++ ys) = lastOfEach key (xs ++ ys) := by
  induction xs with
  | nil => rfl
  | cons x xs ih =>
    rw [List.cons_append, lastOfEach]
    by_cases hx : key x = k
    · have hlater : ((xs ++ ys).any fun y => key y == key x) = true := by
        obtain ⟨y, hy, hyk⟩ := hk
        exact List.any_eq_true.2 ⟨y, List.mem_append_right _ hy, by simp [hyk, hx]⟩
      rw [if_pos hlater, List.filter_cons_of_neg (by simp [hx]), ih]
    · have hsame : (((xs.filter fun x => key x != k) ++ ys).any fun y => key y == key x) =
          (xs ++ ys).any fun y => key y == key x := by
        rw [List.any_append, List.any_append, List.any_filter]
        congr 2
        funext y
        by_cases hy : key y = key x
        · simp [hy, hx]
        · simp [hy]
      rw [List.filter_cons_of_pos (by simp [hx]), List.cons_append, lastOfEach, hsame, ih]

end Pass

namespace ShelfPass

theorem rejected_filter (p : Key → Bool) (es : List (Stored Shelved)) :
    rejected (es.filter fun e => p e.record.key) = (rejected es).filter fun m => p m.key := by
  rw [rejected, rejected, List.filterMap_filter, List.filter_filterMap]
  refine List.filterMap_congr fun e _ => ?_
  cases hk : p e.record.key
  · cases e.record.record.fault <;> simp [Option.filter, Mishap.key, hk]
  · cases e.record.record.fault <;> simp [Option.filter, Mishap.key, hk]

def without (k : Key) (es : List (Stored Shelved)) : List (Stored Shelved) :=
  es.filter fun e => e.record.key != k

theorem sound_without {k : Key} {es : List (Stored Shelved)} {runtime : Properties}
    (h : ∀ e ∈ sound es runtime, e.record.key ≠ k) :
    sound (without k es) runtime = sound es runtime := by
  rw [sound, without, List.filter_comm]
  exact List.filter_eq_self.2 fun e he => bne_iff_ne.2 (h e he)

end ShelfPass

namespace Reconciler

/-- Every place is taken once, and that of the built-in default by nobody. -/
structure FitsShelves (r : Reconciler) (s : Shelves) : Prop where
  keyed : s.Keyed
  builtin_free : ∀ e ∈ s.entries, e.record.key ≠ (Record.application r.builtin).key

variable {r : Reconciler} {s : Shelves} {runtime : Properties}

def laterMishaps (r : Reconciler) (s : Shelves) (runtime : Properties) : List Mishap :=
  ShelfPass.allMishaps [] (ShelfPass.pools (ShelfPass.candidates r.builtin s) runtime)
    (r.shelfField s runtime) (r.shelfVerdicts s runtime)

theorem mishaps_eq (r : Reconciler) (s : Shelves) (runtime : Properties) :
    r.mishaps s runtime =
      ShelfPass.rejected (ShelfPass.candidates r.builtin s) ++ r.laterMishaps s runtime := by
  simp only [mishaps, laterMishaps, ShelfPass.allMishaps, List.append_assoc]
  rfl

theorem shelfFailures_filter (kind : Kind) (p : ProviderId → Bool) :
    (((r.runShelves s runtime).failures kind).filter fun f => p f.record.id) = Pass.sortFailures
      (((Pass.lastOfEach Mishap.key (r.mishaps s runtime)).filter fun m =>
        m.provider.kind == kind && p m.provider.record.id).map Mishap.failure) := by
  rw [shelfFailures_eq, Pass.sortFailures_filter, List.filter_map, List.filter_filter]
  congr 2
  refine List.filter_congr fun m _ => ?_
  rw [Bool.and_comm]
  rfl

/-- Under every key the failure that was met last is told, and no other. -/
theorem shelfFailures_under (r : Reconciler) (s : Shelves) (runtime : Properties) (k : Key) :
    (((r.runShelves s runtime).failures k.kind).filter fun f => f.record.id == k.id) =
      (((r.mishaps s runtime).filter fun m => m.key == k).getLast?.map Mishap.failure).toList := by
  have hkey : (fun m : Mishap => m.provider.kind == k.kind && m.provider.record.id == k.id) =
      fun m => m.key == k := by
    funext m
    rw [Bool.eq_iff_iff, Bool.and_eq_true, beq_iff_eq, beq_iff_eq, beq_iff_eq]
    exact ⟨fun h => congrArg₂ Key.mk h.1 h.2, fun h => h ▸ ⟨rfl, rfl⟩⟩
  rw [shelfFailures_filter k.kind fun i => i == k.id, hkey, Pass.lastOfEach_under]
  cases ((r.mishaps s runtime).filter fun m => m.key == k).getLast? <;> simp [Pass.sortFailures]

theorem shelfFailures_of_mishaps_filter {t : Shelves} {k : Key} (hmishaps : r.mishaps t runtime =
      (r.mishaps s runtime).filter fun m => m.key != k) (kind : Kind) :
    (r.runShelves t runtime).failures kind = ((r.runShelves s runtime).failures kind).filter
      fun f => kind != k.kind || f.record.id != k.id := by
  rw [shelfFailures_filter kind fun i => kind != k.kind || i != k.id, shelfFailures_eq, hmishaps,
    Pass.lastOfEach_filter Mishap.key fun k' => k' != k, List.filter_filter]
  congr 2
  refine List.filter_congr fun m _ => ?_
  by_cases hkind : m.provider.kind = kind
  · subst hkind
    rw [Key.bne_eq]
    rfl
  · rw [beq_false_of_ne hkind, Bool.false_and, Bool.false_and]

theorem exists_shelfFailure_iff (k : Key) :
    (∃ f ∈ (r.runShelves s runtime).failures k.kind, f.record.id = k.id) ↔
      ∃ m ∈ r.mishaps s runtime, m.key = k := by
  have hunder := shelfFailures_under r s runtime k
  constructor
  · rintro ⟨f, hf, hid⟩
    have hmem : f ∈ ((r.runShelves s runtime).failures k.kind).filter fun f =>
        f.record.id == k.id := List.mem_filter.2 ⟨hf, beq_iff_eq.2 hid⟩
    rw [hunder] at hmem
    obtain ⟨m, hm, -⟩ := Option.map_eq_some_iff.1 (Option.mem_toList.1 hmem)
    have := List.mem_filter.1 (List.mem_of_getLast? hm)
    exact ⟨m, this.1, beq_iff_eq.1 this.2⟩
  · rintro ⟨m, hm, hk⟩
    have hne : ((r.mishaps s runtime).filter fun m => m.key == k) ≠ [] :=
      List.ne_nil_of_mem (List.mem_filter.2 ⟨hm, beq_iff_eq.2 hk⟩)
    rw [List.getLast?_eq_some_getLast hne, Option.map_some, Option.toList_some] at hunder
    have hmem := hunder ▸ List.mem_singleton_self _
    have := List.mem_filter.1 hmem
    exact ⟨_, this.1, beq_iff_eq.1 this.2⟩

theorem FitsShelves.candidates_nodup (h : r.FitsShelves s) :
    ((ShelfPass.candidates r.builtin s).map fun e => e.record.key).Nodup := by
  rw [ShelfPass.candidates, List.map_append, List.nodup_append]
  refine ⟨h.keyed, List.nodup_singleton _, ?_⟩
  intro k hk k' hk' he
  obtain ⟨e, hm, rfl⟩ := List.mem_map.1 hk
  obtain rfl := List.mem_singleton.1 hk'
  exact h.builtin_free e hm he

theorem shelfCandidates_without {k : Key} (hk : (Record.application r.builtin).key ≠ k) (n : Nat) :
    ShelfPass.candidates r.builtin ⟨n, (s.erase k).entries⟩ =
      ShelfPass.without k (ShelfPass.candidates r.builtin s) := by
  have hbuiltin : (Shelved.application r.builtin).key ≠ k := hk
  simp [ShelfPass.candidates, ShelfPass.without, Shelves.erase, hbuiltin]

section Unfit

variable {x : Stored Shelved}

/-- Nobody else has the place of a provider that is not admitted, so nobody in the pool has it. -/
theorem FitsShelves.unfit_not_sound (h : r.FitsShelves s) (hx : x ∈ s.entries)
    (hunfit : x.record.record.fault.isSome = true ∨ x.record.record.profile.suits runtime = false) :
    ∀ e ∈ ShelfPass.sound (ShelfPass.candidates r.builtin s) runtime,
      e.record.key ≠ x.record.key := by
  intro e he hkey
  obtain ⟨hmem, hfit⟩ := List.mem_filter.1 he
  have hxc : x ∈ ShelfPass.candidates r.builtin s := List.mem_append_left _ hx
  obtain rfl := List.inj_on_of_nodup_map h.candidates_nodup hmem hxc hkey
  rcases hunfit with hf | hf <;> simp_all

theorem FitsShelves.shelfPools_without (h : r.FitsShelves s) (hx : x ∈ s.entries)
    (hunfit : x.record.record.fault.isSome = true ∨ x.record.record.profile.suits runtime = false)
    (n : Nat) :
    ShelfPass.pools (ShelfPass.candidates r.builtin ⟨n, (s.erase x.record.key).entries⟩) runtime =
      ShelfPass.pools (ShelfPass.candidates r.builtin s) runtime := by
  have hadmitted : ShelfPass.admitted
      (ShelfPass.candidates r.builtin ⟨n, (s.erase x.record.key).entries⟩) runtime =
        ShelfPass.admitted (ShelfPass.candidates r.builtin s) runtime := by
    rw [shelfCandidates_without (h.builtin_free x hx).symm, ShelfPass.admitted, ShelfPass.admitted,
      ShelfPass.sound_without (h.unfit_not_sound hx hunfit)]
  simp only [ShelfPass.pools, hadmitted]

theorem FitsShelves.mishaps_without (h : r.FitsShelves s) (hx : x ∈ s.entries)
    (hunfit : x.record.record.fault.isSome = true ∨ x.record.record.profile.suits runtime = false)
    (n : Nat) :
    r.mishaps ⟨n, (s.erase x.record.key).entries⟩ runtime =
      ((ShelfPass.rejected (ShelfPass.candidates r.builtin s)).filter
        fun m => m.key != x.record.key) ++ r.laterMishaps s runtime := by
  rw [mishaps_eq, laterMishaps, shelfVerdicts, shelfField, h.shelfPools_without hx hunfit,
    shelfCandidates_without (h.builtin_free x hx).symm, ShelfPass.without,
    ShelfPass.rejected_filter fun k => k != x.record.key]
  rfl

theorem FitsShelves.rejected_under (h : r.FitsShelves s) (hx : x ∈ s.entries) :
    ((ShelfPass.rejected (ShelfPass.candidates r.builtin s)).filter fun m =>
      m.key == x.record.key) = (x.record.record.fault.map (Mishap.mk x.record)).toList := by
  have hxc : x ∈ ShelfPass.candidates r.builtin s := List.mem_append_left _ hx
  have hone : ((ShelfPass.candidates r.builtin s).filter fun e => e.record.key == x.record.key) =
      [x] :=
    filter_eq_singleton (g := fun e : Stored Shelved => e.record.key) hxc
      (List.nodup_iff_count_le_one.1 h.candidates_nodup _)
  rw [← ShelfPass.rejected_filter fun k => k == x.record.key, hone]
  cases hf : x.record.record.fault <;> simp [ShelfPass.rejected, hf]

/-- Whoever fails under the key of a missing provider fails after admission. -/
theorem FitsShelves.overwritten_iff (h : r.FitsShelves s) (hx : x ∈ s.entries)
    (hunfit : x.record.record.fault.isSome = true ∨ x.record.record.profile.suits runtime = false)
    (n : Nat) :
    (∃ f ∈ (r.runShelves ⟨n, (s.erase x.record.key).entries⟩ runtime).failures x.record.kind,
      f.record.id = x.record.record.id) ↔
        ∃ m ∈ r.laterMishaps s runtime, m.key = x.record.key := by
  refine (exists_shelfFailure_iff x.record.key).trans ?_
  rw [h.mishaps_without hx hunfit]
  refine exists_congr fun m => ⟨fun ⟨hm, hk⟩ => ⟨?_, hk⟩, fun ⟨hm, hk⟩ =>
    ⟨List.mem_append_right _ hm, hk⟩⟩
  refine (List.mem_append.1 hm).resolve_left fun hrejected => ?_
  exact absurd hk (bne_iff_ne.1 (List.mem_filter.1 hrejected).2)

theorem keys_ofSnapshot (s : Snapshot) : ((Shelves.ofSnapshot s).entries.map fun e => e.record.key) =
    s.entries.map fun e => e.record.key := by
  simp [Shelves.ofSnapshot, Stored.map, Function.comp_def]

theorem erase_ofSnapshot (s : Snapshot) (x : Stored Record) (n : Nat) :
    (⟨n, ((Shelves.ofSnapshot s).erase (x.map Shelved.ofRecord).record.key).entries⟩ : Shelves) =
      .ofSnapshot ⟨n, (s.erase x.record.key).entries⟩ := by
  simp [Shelves.erase, Shelves.ofSnapshot, Snapshot.erase, List.filter_map, Stored.map,
    Function.comp_def]

theorem keyed_of_ofSnapshot {s : Snapshot} (h : (Shelves.ofSnapshot s).Keyed) : s.Keyed := by
  rwa [Shelves.Keyed, keys_ofSnapshot] at h

theorem FitsShelves.of_ofSnapshot {s : Snapshot} (h : r.FitsShelves (.ofSnapshot s)) : r.Fits s := by
  refine ⟨keyed_of_ofSnapshot h.keyed, fun e he hkey => ?_⟩
  refine h.builtin_free _ (List.mem_map_of_mem he) ?_
  simpa [Stored.map] using hkey

theorem FitsShelves.apart_of_alone (h : r.FitsShelves s) (hx : x ∈ s.entries)
    (hunfit : x.record.record.fault.isSome = true ∨ x.record.record.profile.suits runtime = false)
    {n : Nat} (halone : ∀ f ∈ (r.runShelves ⟨n, (s.erase x.record.key).entries⟩ runtime).failures
      x.record.kind, f.record.id ≠ x.record.record.id) :
    ∀ m ∈ r.laterMishaps s runtime, m.key ≠ x.record.key := by
  intro m hm hkey
  obtain ⟨f, hf, hid⟩ := (h.overwritten_iff hx hunfit n).2 ⟨m, hm, hkey⟩
  exact halone f hf hid

theorem FitsShelves.alone (h : r.FitsShelves s) (hx : x ∈ s.entries)
    (hunfit : x.record.record.fault.isSome = true ∨ x.record.record.profile.suits runtime = false)
    (n : Nat) (hs : s.InOrder) :
    ∀ f ∈ (r.runShelves ⟨n, (s.erase x.record.key).entries⟩ runtime).failures x.record.kind,
      f.record.id ≠ x.record.record.id := by
  obtain ⟨s', rfl⟩ := Shelves.inOrder_iff.1 hs
  obtain ⟨x', hx', rfl⟩ := List.mem_map.1 hx
  have hfits := h.of_ofSnapshot
  simp only [Stored.map, Shelved.record_ofRecord] at hunfit
  intro f hf hid
  rw [erase_ofSnapshot, runShelves_ofSnapshot r (hfits.without _ _).keyed] at hf
  obtain ⟨-, -, hothers, -⟩ := run_ignores_unfit r s' runtime hfits x' hx' hunfit n
  rw [hothers] at hf
  obtain ⟨hf, hne⟩ := List.mem_filter.1 hf
  have hkind := kind_of_failures hf
  simp only [Stored.map, Shelved.kind_ofRecord, Shelved.record_ofRecord] at hkind hid
  exact bne_iff_ne.1 hne (congrArg₂ Key.mk hkind hid)

end Unfit

/-- A pass over `t` comes to what a pass over `s` comes to, though `x` is missing. The failure of `x`
is missing too, unless somebody else has a failure under the key of `x`, which is told in either
pass. -/
structure Spares (r : Reconciler) (s t : Shelves) (runtime : Properties) (x : Shelved) : Prop where
  applications : (r.runShelves t runtime).applications = (r.runShelves s runtime).applications
  defaultApplication :
    (r.runShelves t runtime).defaultApplication = (r.runShelves s runtime).defaultApplication
  own : (∀ f ∈ (r.runShelves t runtime).failures x.kind, f.record.id ≠ x.record.id) →
    ((r.runShelves s runtime).failures x.kind).filter (fun f => f.record.id == x.record.id) =
      (x.record.fault.map (Failure.mk x.record)).toList
  others : (∀ f ∈ (r.runShelves t runtime).failures x.kind, f.record.id ≠ x.record.id) →
    ∀ kind, (r.runShelves t runtime).failures kind =
      ((r.runShelves s runtime).failures kind).filter fun f =>
        kind != x.kind || f.record.id != x.record.id
  overwritten : (∃ f ∈ (r.runShelves t runtime).failures x.kind, f.record.id = x.record.id) →
    ∀ kind, (r.runShelves t runtime).failures kind = (r.runShelves s runtime).failures kind
  alone : s.InOrder → ∀ f ∈ (r.runShelves t runtime).failures x.kind, f.record.id ≠ x.record.id

/-- Without a provider that is faulty or meant for another runtime a pass deploys the same
applications with the same content and tells the same failures, but for the provider's own. -/
theorem runShelves_spares_unfit (r : Reconciler) (s : Shelves) (runtime : Properties)
    (h : r.FitsShelves s) (x : Stored Shelved) (hx : x ∈ s.entries)
    (hunfit : x.record.record.fault.isSome = true ∨ x.record.record.profile.suits runtime = false)
    (n : Nat) : r.Spares s ⟨n, (s.erase x.record.key).entries⟩ runtime x.record := by
  have hpools := h.shelfPools_without hx hunfit n
  have hmishaps := h.mishaps_without hx hunfit n
  constructor
  · rw [shelfApplications_eq, shelfApplications_eq, shelfAccepted, shelfVerdicts, shelfField, hpools]
    rfl
  · rw [shelfDefaultApplication_eq, shelfDefaultApplication_eq, shelfAccepted, shelfVerdicts,
      shelfDefaultId?, shelfField, hpools]
    rfl
  · intro halone
    have hlater : ∀ m ∈ r.laterMishaps s runtime, ¬ (m.key == x.record.key) = true :=
      fun m hm => mt beq_iff_eq.1 (h.apart_of_alone hx hunfit halone m hm)
    have hunder := shelfFailures_under r s runtime x.record.key
    rw [mishaps_eq, List.filter_append, h.rejected_under hx, List.filter_eq_nil_iff.2 hlater,
      List.append_nil] at hunder
    refine hunder.trans ?_
    cases x.record.record.fault <;> rfl
  · intro halone
    have hlater : (r.laterMishaps s runtime).filter (fun m => m.key != x.record.key) =
        r.laterMishaps s runtime :=
      List.filter_eq_self.2 fun m hm => bne_iff_ne.2 (h.apart_of_alone hx hunfit halone m hm)
    refine shelfFailures_of_mishaps_filter (k := x.record.key) ?_
    rw [hmishaps, mishaps_eq, List.filter_append, hlater]
  · intro hthere kind
    have hlater := (h.overwritten_iff hx hunfit n).1 hthere
    rw [shelfFailures_eq, shelfFailures_eq, hmishaps, mishaps_eq,
      Pass.lastOfEach_append_of_later Mishap.key hlater]
  · exact h.alone hx hunfit n

end Reconciler

namespace Shop

def blank (n : Int64) : Content :=
  .ofProperties .resource (.registered n) (.ofList [(Keys.name, .text "")]) none

def stray : Content :=
  .ofProperties .resource (.registered 5)
    (.ofList [(Keys.name, .text "stray"),
      (Keys.applicationSelect, .text "(whiteboard.name=nowhere)")]) none

def attic : Shelves :=
  ⟨3, [⟨1, .content ⟨.resource, blank 5⟩⟩, ⟨2, .content ⟨.extension, stray⟩⟩,
    ⟨3, .content ⟨.extension, blank 6⟩⟩]⟩

theorem attic_admitted : ShelfPass.admitted (ShelfPass.candidates reconciler.builtin attic) .empty =
    [⟨2, .content ⟨.extension, stray⟩⟩, ⟨0, .application reconciler.builtin⟩] := by
  have hsound : ShelfPass.sound (ShelfPass.candidates reconciler.builtin attic) .empty =
      [⟨2, .content ⟨.extension, stray⟩⟩, ⟨0, .application reconciler.builtin⟩] := by
    decide +kernel
  rw [ShelfPass.admitted, hsound, ShelfPass.sortPool]
  exact List.mergeSort_of_pairwise (by decide +kernel)

theorem attic_fits : reconciler.FitsShelves attic :=
  ⟨by decide +kernel, by decide +kernel⟩

/-- The sixth resource takes no part, and its own failure, which is told under its shelf, is all that
goes with it. -/
theorem blank_spared : reconciler.FitsShelves attic ∧ (blank 6).fault.isSome = true ∧
    reconciler.Spares attic ⟨2, (attic.erase ⟨.extension, .registered 6⟩).entries⟩ .empty
      (.content ⟨.extension, blank 6⟩) ∧
    ((reconciler.runShelves attic .empty).failures .extension).filter
      (fun f => f.record.id == .registered 6) = [⟨.content (blank 6), .emptyName⟩] := by
  have hfault : (blank 6).fault = some .emptyName := by decide +kernel
  have hfaulty : (blank 6).fault.isSome = true := by rw [hfault]; rfl
  have hmem : ⟨3, .content ⟨.extension, blank 6⟩⟩ ∈ attic.entries := by decide +kernel
  have hspares := Reconciler.runShelves_spares_unfit reconciler attic .empty attic_fits
    ⟨3, .content ⟨.extension, blank 6⟩⟩ hmem (Or.inl hfaulty) 2
  have hlater : ¬ ∃ m ∈ reconciler.laterMishaps attic .empty,
      m.key = (Shelved.content ⟨.extension, blank 6⟩).key := by
    rw [Reconciler.laterMishaps, Reconciler.shelfVerdicts, Reconciler.shelfField, ShelfPass.pools,
      attic_admitted]
    decide +kernel
  have halone := (attic_fits.overwritten_iff hmem (Or.inl hfaulty) 2).not.2 hlater
  refine ⟨attic_fits, hfaulty, hspares, (hspares.own fun f hf hid => halone ⟨f, hf, hid⟩).trans ?_⟩
  change ((blank 6).fault.map _).toList = _
  rw [hfault]
  rfl

/-- The fifth resource is faulty, but the failure of the stray one on the other shelf is told in the
place of its own. -/
theorem blank_untold : reconciler.FitsShelves attic ∧
    ⟨1, .content ⟨.resource, blank 5⟩⟩ ∈ attic.entries ∧ (blank 5).fault = some .emptyName ∧
    ∀ f ∈ (reconciler.runShelves attic .empty).failures .resource,
      f.record ≠ .content (blank 5) := by
  refine ⟨attic_fits, by decide +kernel, by decide +kernel, fun f => ?_⟩
  rw [Reconciler.shelfFailures_eq, Pass.sortFailures, List.mem_mergeSort, Reconciler.mishaps,
    Reconciler.shelfVerdicts, Reconciler.shelfField, ShelfPass.pools, attic_admitted]
  revert f
  decide +kernel

end Shop

end Reconciliation
