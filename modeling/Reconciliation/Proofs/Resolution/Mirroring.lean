import Reconciliation.Proofs.Resolution.Renaming
import Reconciliation.Proofs.Resolution.Rivalry

/-! # Pools under other tokens

Two pools mirror each other when they hold the same providers under other tokens. A rule decides
alike on both, as long as whoever wins in one of them is ahead of its rivals in the other.
-/
namespace Reconciliation

/-- What matters of a failure: whom it concerns, and the class of its cause. -/
def Failure.gist (f : Failure) : Record × Reason :=
  (f.record, f.cause.reason)

def Renaming.gist (ρ : Renaming) (f : Failure) : Record × Reason :=
  (ρ.onRecord f.record, f.cause.reason)

def FailuresMirror (ρ : Renaming) (fs gs : List Failure) : Prop :=
  (gs.map Failure.gist).Perm (fs.map ρ.gist)

theorem FailuresMirror.append {ρ : Renaming} {fs gs fs' gs' : List Failure}
    (h : FailuresMirror ρ fs gs) (h' : FailuresMirror ρ fs' gs') :
    FailuresMirror ρ (fs ++ fs') (gs ++ gs') := by
  unfold FailuresMirror
  rw [List.map_append, List.map_append]
  exact List.Perm.append h h'

namespace Pass

def Swaps (ρ : Renaming) (a b : Record) : Prop :=
  (ρ.onRecord a).compare (ρ.onRecord b) ≠ a.compare b

instance (ρ : Renaming) (a b : Record) : Decidable (Swaps ρ a b) :=
  inferInstanceAs (Decidable (_ ≠ _))

def KeepsWinners (ρ : Renaming) (rule : Rule) (pool : List (Stored Record)) : Prop :=
  ∀ l ∈ (storedContest rule).losses pool, ¬ Swaps ρ l.2.record l.1.record

structure KeepsNames (ρ : Renaming) (es : List (Stored Record)) : Prop where
  rivals : ∀ a ∈ es, ∀ b ∈ es, Record.rivals .name (ρ.onRecord a.record) (ρ.onRecord b.record) =
    Record.rivals .name a.record b.record
  order : ∀ a ∈ es, ∀ b ∈ es, Record.rivals .name a.record b.record = true →
    ¬ Swaps ρ a.record b.record

theorem KeepsNames.subset {ρ : Renaming} {es es' : List (Stored Record)} (h : KeepsNames ρ es)
    (hs : es' ⊆ es) : KeepsNames ρ es' where
  rivals a ha b hb := h.rivals a (hs ha) b (hs hb)
  order a ha b hb := h.order a (hs ha) b (hs hb)

def inTheWayOf (rule : Rule) (x y : Stored Record) : Bool :=
  Record.rivals rule y.record x.record

theorem stake_eq_inTheWayOf {rule : Rule} {x : Stored Record} {k : String}
    (hk : (storedContest rule).stake x = some k) :
    (fun y => (storedContest rule).stake y == some k) = inTheWayOf rule x :=
  funext fun y => stake_beq_of_stake hk y.record

theorem rivals_of_find? {rule : Rule} {es : List (Stored Record)} {w x : Stored Record}
    (h : es.find? (inTheWayOf rule x) = some w) :
    Record.rivals rule w.record x.record = true := by
  have hw : inTheWayOf rule x w = true := List.find?_some h
  exact hw

theorem stake_eq_none_iff {rule : Rule} {x : Stored Record} :
    (storedContest rule).stake x = none ↔ inTheWayOf rule x x = false := by
  cases hk : (storedContest rule).stake x with
  | none => exact iff_of_true rfl (rivals_of_no_stake hk x.record)
  | some k =>
    have hself : inTheWayOf rule x x = true := by
      rw [← stake_eq_inTheWayOf hk]
      exact beq_iff_eq.2 hk
    simp [hself]

def Sorted (es : List (Stored Record)) : Prop :=
  es.Pairwise fun a b => (a.record.compare b.record).isLE = true

structure Mirrors (ρ : Renaming) (xs ys : List (Stored Record)) : Prop where
  keyed : (xs.map fun e => e.record.key).Nodup
  perm : ys.Perm (xs.map ρ.entry)
  sorted : Sorted xs
  sorted' : Sorted ys

theorem Sorted.find?_eq_some {es : List (Stored Record)} (h : Sorted es) {p : Stored Record → Bool}
    {w : Stored Record} (hw : w ∈ es) (hp : p w = true)
    (hahead : ∀ e ∈ es, p e = true → e ≠ w → w.record.compare e.record = .lt) :
    es.find? p = some w := by
  cases hfind : es.find? p with
  | none => exact absurd hp (List.find?_eq_none.1 hfind w hw)
  | some e =>
    obtain ⟨he, front, back, rfl, hfirst⟩ := List.find?_eq_some_iff_append.1 hfind
    by_cases hne : e = w
    · rw [hne]
    have hback : w ∈ back := by
      rcases List.mem_append.1 hw with hw | hw
      · simpa [hp] using hfirst w hw
      · exact (List.mem_cons.1 hw).resolve_left (Ne.symm hne)
    have hle := List.rel_of_pairwise_cons (List.pairwise_append.1 h).2.1 hback
    have hswap : e.record.compare w.record = (w.record.compare e.record).swap :=
      Std.OrientedCmp.eq_swap
    rw [hswap, hahead e (by simp) he hne] at hle
    cases hle

namespace Mirrors

variable {ρ : Renaming} {xs ys : List (Stored Record)}

theorem nodup (h : Mirrors ρ xs ys) : (xs.map ρ.entry).Nodup := by
  have hkeys : ((xs.map ρ.entry).map fun e => e.record.key).Nodup := by
    have hmap : (xs.map ρ.entry).map (fun e => e.record.key) =
        (xs.map fun e => e.record.key).map ρ.onKey := by
      simp
    rw [hmap]
    exact h.keyed.map ρ.onKey_injective
  exact List.Nodup.of_map _ hkeys

theorem compare_eq_lt (h : Mirrors ρ xs ys) {p : Stored Record → Bool} {w z : Stored Record}
    (hw : xs.find? p = some w) (hz : z ∈ xs) (hp : p z = true) (hne : z ≠ w) :
    w.record.compare z.record = .lt := by
  have hmem := List.mem_of_find?_eq_some hw
  obtain ⟨-, front, back, hsplit, hfirst⟩ := List.find?_eq_some_iff_append.1 hw
  have hback : z ∈ back := by
    rw [hsplit] at hz
    rcases List.mem_append.1 hz with hz | hz
    · simpa [hp] using hfirst z hz
    · exact (List.mem_cons.1 hz).resolve_left hne
  have hsorted := h.sorted
  rw [hsplit] at hsorted
  have hle := List.rel_of_pairwise_cons (List.pairwise_append.1 hsorted).2.1 hback
  have hapart : w.record.compare z.record ≠ .eq := fun heq =>
    hne (List.inj_on_of_nodup_map h.keyed hz hmem (Record.key_eq_of_compare heq).symm)
  cases hcompare : w.record.compare z.record with
  | lt => rfl
  | eq => exact absurd hcompare hapart
  | gt =>
    rw [hcompare] at hle
    cases hle

theorem follows (h : Mirrors ρ xs ys) {rule : Rule}
    (hrivals : ∀ a ∈ xs, ∀ b ∈ xs, Record.rivals rule (ρ.onRecord a.record) (ρ.onRecord b.record) =
      Record.rivals rule a.record b.record)
    (hstays : ∀ w ∈ xs, ∀ z ∈ xs, xs.find? (inTheWayOf rule z) = some w → z ≠ w →
      ¬ Swaps ρ w.record z.record) :
    (storedContest rule).Follows ρ.entry xs ys where
  perm := h.perm
  nodup := h.nodup
  idle x hx := by
    rw [stake_eq_none_iff, stake_eq_none_iff, inTheWayOf, inTheWayOf, ← hrivals x hx x hx]
    rfl
  spares w _ x _ := by
    have hne : ((ρ.onRecord w.record).id != (ρ.onRecord x.record).id) =
        (w.record.id != x.record.id) := by
      rw [Bool.eq_iff_iff, bne_iff_ne, bne_iff_ne, Renaming.id_onRecord, Renaming.id_onRecord,
        ρ.onId_injective.ne_iff]
    change (Record.contest rule).spares (ρ.onRecord w.record) (ρ.onRecord x.record) =
      (Record.contest rule).spares w.record x.record
    rw [← Bool.not_inj_iff, spares_eq, spares_eq, hne]
  first x hx k k' hk hk' := by
    have hself : inTheWayOf rule x x = true := by
      rw [← stake_eq_inTheWayOf hk]
      exact beq_iff_eq.2 hk
    obtain ⟨w, hw⟩ := Option.isSome_iff_exists.1 (List.find?_isSome.2 ⟨x, hx, hself⟩)
    have hmem := List.mem_of_find?_eq_some hw
    rw [stake_eq_inTheWayOf hk, stake_eq_inTheWayOf hk', hw, Option.map_some]
    refine h.sorted'.find?_eq_some (h.perm.mem_iff.2 (List.mem_map_of_mem hmem)) ?_ ?_
    · exact (hrivals w hmem x hx).trans (rivals_of_find? hw)
    · intro e he hrival hne
      obtain ⟨z, hz, rfl⟩ := List.mem_map.1 (h.perm.mem_iff.1 he)
      have hrival : inTheWayOf rule x z = true := (hrivals z hz x hx).symm.trans hrival
      have hzw : z ≠ w := fun heq => hne (congrArg ρ.entry heq)
      have hkz : (storedContest rule).stake z = some k := by
        rw [← stake_eq_inTheWayOf hk] at hrival
        exact beq_iff_eq.1 hrival
      have hsame : inTheWayOf rule z = inTheWayOf rule x := by
        rw [← stake_eq_inTheWayOf hkz, ← stake_eq_inTheWayOf hk]
      have hstay := hstays w hmem z hz (by rw [hsame]; exact hw) hzw
      rw [Renaming.record_entry, Renaming.record_entry, not_not.1 hstay]
      exact h.compare_eq_lt hw hz hrival hzw

/-- Other tokens do not decide a rule if they leave the winners ahead. -/
theorem follows_of_keepsWinners (h : Mirrors ρ xs ys) {rule : Rule} (hrule : rule ≠ .name)
    (hwinners : KeepsWinners ρ rule xs) : (storedContest rule).Follows ρ.entry xs ys := by
  refine h.follows (fun a _ b _ => ?_) fun w _ z hz hw hzw => ?_
  · cases rule with
    | path | default => cases ha : a.record <;> cases hb : b.record <;> rfl
    | name => exact absurd rfl hrule
  · obtain ⟨k, hk⟩ : ∃ k, (storedContest rule).stake z = some k := by
      refine Option.ne_none_iff_exists'.1 fun hnone => ?_
      cases (rivals_of_no_stake hnone w.record).symm.trans (rivals_of_find? hw)
    have hspares : (Record.contest rule).spares w.record z.record = false := by
      rw [← Bool.not_inj_iff, spares_eq, bne_iff_ne.2 hrule]
      rfl
    rw [← stake_eq_inTheWayOf hk] at hw
    exact hwinners (z, w) (Contest.mem_losses_of_find? hw hz hk hzw hspares)

theorem follows_names (h : Mirrors ρ xs ys) (hnames : KeepsNames ρ xs) :
    (storedContest .name).Follows ρ.entry xs ys :=
  h.follows hnames.rivals fun w hw z hz hfirst _ => hnames.order w hw z hz (rivals_of_find? hfirst)

theorem afterRule (h : Mirrors ρ xs ys) {rule : Rule}
    (hfollows : (storedContest rule).Follows ρ.entry xs ys) :
    Mirrors ρ (afterRule rule xs) (afterRule rule ys) where
  keyed := ((afterRule_sublist rule xs).map _).nodup h.keyed
  perm := hfollows.survivors_perm
  sorted := h.sorted.sublist (afterRule_sublist rule xs)
  sorted' := h.sorted'.sublist (afterRule_sublist rule ys)

theorem lostTo {rule : Rule} (hfollows : (storedContest rule).Follows ρ.entry xs ys) :
    FailuresMirror ρ (lostTo rule xs) (lostTo rule ys) := by
  have hreason (w : Record) : (Record.causeOf rule w).reason = rule.reason := by
    cases rule <;> rfl
  have hgist (pool : List (Stored Record)) : (Pass.lostTo rule pool).map Failure.gist =
      (((storedContest rule).losses pool).map Prod.fst).map fun e => (e.record, rule.reason) := by
    simp [Pass.lostTo, Failure.gist, hreason]
  have hunder : (Pass.lostTo rule xs).map ρ.gist =
      ((((storedContest rule).losses xs).map Prod.fst).map ρ.entry).map
        fun e => (e.record, rule.reason) := by
    simp [Pass.lostTo, Renaming.gist, hreason]
  rw [FailuresMirror, hgist, hunder]
  exact hfollows.losers_perm.map _

end Mirrors

theorem rejected_mirror (ρ : Renaming) (es : List (Stored Record)) :
    FailuresMirror ρ (rejected es) (rejected (es.map ρ.entry)) := by
  have heq : (rejected (es.map ρ.entry)).map Failure.gist = (rejected es).map ρ.gist := by
    simp only [rejected, List.filterMap_map, List.map_filterMap, Function.comp_def,
      Renaming.record_entry, Renaming.fault_onRecord, Option.map_map]
    rfl
  rw [FailuresMirror, heq]

def sound (es : List (Stored Record)) (runtime : Properties) : List (Stored Record) :=
  es.filter fun e => e.record.fault.isNone && e.record.profile.suits runtime

theorem sound_entries (ρ : Renaming) (es : List (Stored Record)) (runtime : Properties) :
    sound (es.map ρ.entry) runtime = (sound es runtime).map ρ.entry := by
  unfold sound
  rw [List.filter_map]
  congr 1
  refine List.filter_congr fun e _ => ?_
  simp only [Function.comp, Renaming.record_entry, Renaming.fault_onRecord, Renaming.suits_onRecord]

theorem admitted_mirrors {ρ : Renaming} {es : List (Stored Record)} {runtime : Properties}
    (hkeyed : (es.map fun e => e.record.key).Nodup) :
    Mirrors ρ (admitted es runtime) (admitted (es.map ρ.entry) runtime) := by
  have hperm : (admitted es runtime).Perm (sound es runtime) := List.mergeSort_perm _ _
  have hperm' : (admitted (es.map ρ.entry) runtime).Perm (sound (es.map ρ.entry) runtime) :=
    List.mergeSort_perm _ _
  refine ⟨?_, ?_, sortPool_pairwise _, sortPool_pairwise _⟩
  · exact (hperm.map _).nodup_iff.2 ((List.filter_sublist.map _).nodup hkeyed)
  · rw [sound_entries] at hperm'
    exact hperm'.trans (hperm.map ρ.entry).symm

end Pass

end Reconciliation
