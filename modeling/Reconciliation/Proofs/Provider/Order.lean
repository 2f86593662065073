import Mathlib.Data.List.Nodup
import Reconciliation.Provider.Order

/-! # The order of providers is total

Two records are level if they agree in priority, id, name and kind. A list of records with keys of
their own can be put in order in one way only, whatever order it came in.
-/
namespace Reconciliation

theorem orientedCmp_view {α β : Type} (cmp : β → β → Ordering) [Std.OrientedCmp cmp]
    (view : α → β) : Std.OrientedCmp fun a b => cmp (view a) (view b) :=
  ⟨Std.OrientedCmp.eq_swap⟩

theorem transCmp_view {α β : Type} (cmp : β → β → Ordering) [Std.TransCmp cmp]
    (view : α → β) : Std.TransCmp fun a b => cmp (view a) (view b) :=
  { orientedCmp_view cmp view with isLE_trans := Std.TransCmp.isLE_trans }

namespace ProviderId

theorem compare_swap (a b : ProviderId) : a.compare b = (b.compare a).swap := by
  cases a <;> cases b <;> simp only [ProviderId.compare]
  · exact Std.OrientedOrd.eq_swap
  · rfl
  · rfl
  · exact Std.OrientedOrd.eq_swap

theorem compare_isLE_trans {a b c : ProviderId} (hab : (a.compare b).isLE)
    (hbc : (b.compare c).isLE) : (a.compare c).isLE := by
  cases a <;> cases b <;> cases c <;> simp only [ProviderId.compare] at *
  case registered.registered.registered => exact Std.TransOrd.isLE_trans hab hbc
  case generated.generated.generated => exact Std.TransOrd.isLE_trans hab hbc
  all_goals first | rfl | contradiction

instance : Std.TransOrd ProviderId where
  eq_swap := compare_swap _ _
  isLE_trans := compare_isLE_trans

theorem eq_of_compare {a b : ProviderId} (h : a.compare b = .eq) : a = b := by
  cases a <;> cases b <;> simp only [ProviderId.compare] at h
  · exact congrArg registered (Int64.toInt_inj.1 (Std.LawfulEqOrd.eq_of_compare h))
  · cases h
  · cases h
  · exact congrArg generated (Std.LawfulEqOrd.eq_of_compare h)

theorem compareRegistered_swap (a b : ProviderId) :
    a.compareRegistered b = (b.compareRegistered a).swap := by
  cases a <;> cases b <;> simp only [compareRegistered]
  · exact Std.OrientedOrd.eq_swap
  all_goals rfl

theorem compareRegistered_isLE_trans {a b c : ProviderId} (hab : (a.compareRegistered b).isLE)
    (hbc : (b.compareRegistered c).isLE) : (a.compareRegistered c).isLE := by
  cases a <;> cases b <;> cases c <;> simp only [compareRegistered] at *
  case registered.registered.registered => exact Std.TransOrd.isLE_trans hab hbc
  all_goals first | rfl | contradiction

instance : Std.TransCmp compareRegistered where
  eq_swap := compareRegistered_swap _ _
  isLE_trans := compareRegistered_isLE_trans

end ProviderId

namespace Kind

instance : Std.TransOrd Kind :=
  transCmp_view Ord.compare Kind.rank

theorem eq_of_compare {a b : Kind} (h : Ord.compare a b = .eq) : a = b := by
  have hr : a.rank = b.rank := Std.LawfulEqOrd.eq_of_compare h
  cases a <;> cases b <;> first | rfl | cases hr

end Kind

namespace Profile

/-- Four comparisons, each of which counts where those before it are level. -/
theorem compare_eq_compareLex : Profile.compare =
    compareLex (fun a b => Ord.compare b.priority a.priority)
      (compareLex (fun a b => a.id.compareRegistered b.id)
        (compareLex (fun a b => Ord.compare a.name b.name) fun a b => Ord.compare a.id b.id)) :=
  rfl

instance : Std.TransCmp Profile.compare := by
  have hid : Std.TransCmp fun a b : Profile => a.id.compareRegistered b.id :=
    transCmp_view ProviderId.compareRegistered Profile.id
  have hpriority : Std.TransCmp fun a b : Profile => Ord.compare a.priority b.priority :=
    transCmp_view Ord.compare Profile.priority
  have hname : Std.TransCmp fun a b : Profile => Ord.compare a.name b.name :=
    transCmp_view Ord.compare Profile.name
  have htoken : Std.TransCmp fun a b : Profile => Ord.compare a.id b.id :=
    transCmp_view Ord.compare Profile.id
  have hdescending : Std.TransCmp fun a b : Profile => Ord.compare b.priority a.priority :=
    .opposite
  rw [compare_eq_compareLex]
  infer_instance

theorem level_of_compare {a b : Profile} (h : a.compare b = .eq) :
    a.priority = b.priority ∧ a.id = b.id ∧ a.name = b.name := by
  obtain ⟨hpriority, hrest⟩ := Ordering.then_eq_eq.1 h
  obtain ⟨-, hrest⟩ := Ordering.then_eq_eq.1 hrest
  obtain ⟨hname, hid⟩ := Ordering.then_eq_eq.1 hrest
  exact ⟨(Std.LawfulEqOrd.eq_of_compare hpriority).symm, ProviderId.eq_of_compare hid,
    Std.LawfulEqOrd.eq_of_compare hname⟩

theorem compare_eq_iff {a b : Profile} :
    a.compare b = .eq ↔ a.priority = b.priority ∧ a.id = b.id ∧ a.name = b.name := by
  refine ⟨level_of_compare, ?_⟩
  rintro ⟨hpriority, hid, hname⟩
  have hself : a.compare b = b.compare b := by rw [compare, hpriority, hid, hname, compare]
  rw [hself]
  exact Std.ReflCmp.compare_self

end Profile

namespace Record

instance : Std.TransCmp Record.compare := by
  have hprofile : Std.TransCmp fun a b : Record => a.profile.compare b.profile :=
    transCmp_view Profile.compare Record.profile
  have hkind : Std.TransCmp fun a b : Record => Ord.compare a.kind b.kind :=
    transCmp_view Ord.compare Record.kind
  exact inferInstanceAs (Std.TransCmp (compareLex _ _))

theorem compare_eq_iff {a b : Record} : a.compare b = .eq ↔
    a.profile.priority = b.profile.priority ∧ a.id = b.id ∧ a.name = b.name ∧ a.kind = b.kind := by
  have hkind : Ord.compare a.kind b.kind = .eq ↔ a.kind = b.kind := by
    refine ⟨Kind.eq_of_compare, ?_⟩
    intro h
    rw [h]
    exact Std.ReflCmp.compare_self
  rw [compare, Ordering.then_eq_eq, Profile.compare_eq_iff, hkind, and_assoc, and_assoc]
  rfl

theorem key_eq_of_compare {a b : Record} (h : a.compare b = .eq) : a.key = b.key := by
  obtain ⟨-, hid, -, hkind⟩ := compare_eq_iff.1 h
  rw [key, key, hkind, hid]

end Record

section Sorting

variable {α : Type} {cmp : α → α → Ordering} [Std.TransCmp cmp]

theorem isLE_or_isLE (a b : α) : ((cmp a b).isLE || (cmp b a).isLE) = true := by
  have hs : cmp a b = (cmp b a).swap := Std.OrientedCmp.eq_swap
  rw [hs]
  cases cmp b a <;> rfl

theorem isLE_trans_of (a b c : α) (hab : (cmp a b).isLE = true)
    (hbc : (cmp b c).isLE = true) : (cmp a c).isLE = true :=
  Std.TransCmp.isLE_trans hab hbc

theorem mergeSort_pairwise (xs : List α) :
    (xs.mergeSort fun a b => (cmp a b).isLE).Pairwise fun a b => (cmp a b).isLE = true :=
  List.pairwise_mergeSort isLE_trans_of isLE_or_isLE xs

variable (cmp) in
structure Arranges (xs ys : List α) : Prop where
  perm : ys.Perm xs
  sorted : ys.Pairwise fun a b => (cmp a b).isLE = true

theorem arranges_mergeSort (xs : List α) :
    Arranges cmp xs (xs.mergeSort fun a b => (cmp a b).isLE) :=
  ⟨List.mergeSort_perm xs _, mergeSort_pairwise xs⟩

/-- A list in which whoever is level is the same can be put in order in one way only. -/
theorem Arranges.unique {xs ys zs : List α} (hlevel : ∀ x ∈ xs, ∀ y ∈ xs, cmp x y = .eq → x = y)
    (hy : Arranges cmp xs ys) (hz : Arranges cmp xs zs) : ys = zs := by
  refine List.Perm.eq_of_pairwise ?_ hy.sorted hz.sorted (hy.perm.trans hz.perm.symm)
  intro a b ha hb hab hba
  exact hlevel a (hy.perm.subset ha) b (hz.perm.subset hb) (Std.OrientedCmp.isLE_antisymm hab hba)

theorem existsUnique_arranges {xs : List α} (hlevel : ∀ x ∈ xs, ∀ y ∈ xs, cmp x y = .eq → x = y) :
    ∃! ys, Arranges cmp xs ys :=
  ⟨_, arranges_mergeSort xs, fun _ hy => hy.unique hlevel (arranges_mergeSort xs)⟩

/-- Sorting forgets the order of a list in which whoever is level is the same. -/
theorem mergeSort_eq_of_perm {xs ys : List α} (hp : xs.Perm ys)
    (hlevel : ∀ x ∈ xs, ∀ y ∈ xs, cmp x y = .eq → x = y) :
    xs.mergeSort (fun a b => (cmp a b).isLE) = ys.mergeSort fun a b => (cmp a b).isLE := by
  have hys : Arranges cmp xs (ys.mergeSort fun a b => (cmp a b).isLE) :=
    ⟨(List.mergeSort_perm ys _).trans hp.symm, mergeSort_pairwise ys⟩
  exact (arranges_mergeSort xs).unique hlevel hys

variable (cmp) in
theorem mergeSort_cons_split (x : α) (xs : List α) :
    ∃ before after, ((x :: xs).mergeSort fun a b => (cmp a b).isLE) = before ++ x :: after ∧
      (xs.mergeSort fun a b => (cmp a b).isLE) = before ++ after ∧
      (∀ b ∈ before, (cmp x b).isLE = false) ∧ ∀ a ∈ after, (cmp x a).isLE = true := by
  obtain ⟨before, after, hcons, hrest, hbefore⟩ := List.mergeSort_cons
    (isLE_trans_of : ∀ a b c, (cmp a b).isLE = true → (cmp b c).isLE = true → _) isLE_or_isLE x xs
  have hsorted : ((x :: xs).mergeSort fun a b => (cmp a b).isLE).Pairwise
      fun a b => (cmp a b).isLE = true := mergeSort_pairwise (x :: xs)
  rw [hcons] at hsorted
  refine ⟨before, after, hcons, hrest, fun b hb => by simpa using hbefore b hb, ?_⟩
  exact (List.pairwise_cons.1 (List.pairwise_append.1 hsorted).2.1).1

theorem takeWhile_of_split {q : α → Bool} {xs ys : List α} (hx : ∀ x ∈ xs, q x = true)
    (hy : ∀ y ∈ ys, q y = false) : (xs ++ ys).takeWhile q = xs := by
  rw [List.takeWhile_append_of_pos hx]
  cases ys with
  | nil => simp
  | cons y ys => simp [hy y List.mem_cons_self]

theorem filter_mergeSort (p : α → Bool) (xs : List α) :
    ((xs.mergeSort fun a b => (cmp a b).isLE).filter p) =
      (xs.filter p).mergeSort fun a b => (cmp a b).isLE := by
  induction xs with
  | nil => simp
  | cons x xs ih =>
    obtain ⟨before, after, hcons, hrest, hbefore, hafter⟩ := mergeSort_cons_split cmp x xs
    rw [hrest, List.filter_append] at ih
    by_cases hp : p x = true
    · obtain ⟨before', after', hcons', hrest', hbefore', hafter'⟩ :=
        mergeSort_cons_split cmp x (xs.filter p)
      have hsplit : before.filter p ++ after.filter p = before' ++ after' := ih.trans hrest'
      have htake := congrArg (List.takeWhile fun b => !(cmp x b).isLE) hsplit
      rw [takeWhile_of_split (fun b hb => by simp [hbefore b (List.mem_filter.1 hb).1])
          (fun a ha => by simp [hafter a (List.mem_filter.1 ha).1]),
        takeWhile_of_split (fun b hb => by simp [hbefore' b hb])
          (fun a ha => by simp [hafter' a ha])] at htake
      rw [htake] at hsplit
      rw [hcons, List.filter_cons_of_pos hp, hcons', List.filter_append,
        List.filter_cons_of_pos hp, htake, List.append_cancel_left hsplit]
    · rw [hcons, List.filter_append, List.filter_cons_of_neg hp, ih, List.filter_cons_of_neg hp]

end Sorting

/-- All stand in one row by a comparison, and those are level that bear the same mark. -/
structure Ranks {α β : Type} (cmp : α → α → Ordering) (mark : α → β) : Prop where
  reverse : ∀ a b, cmp a b = (cmp b a).swap
  le_trans : ∀ a b c, (cmp a b).isLE = true → (cmp b c).isLE = true → (cmp a c).isLE = true
  lt_trans : ∀ a b c, cmp a b = .lt → cmp b c = .lt → cmp a c = .lt
  level : ∀ a b, cmp a b = .eq ↔ mark a = mark b

theorem Ranks.of_level {α β : Type} {cmp : α → α → Ordering} [Std.TransCmp cmp] {mark : α → β}
    (hlevel : ∀ a b, cmp a b = .eq ↔ mark a = mark b) : Ranks cmp mark where
  reverse _ _ := Std.OrientedCmp.eq_swap
  le_trans := isLE_trans_of
  lt_trans _ _ _ := Std.TransCmp.lt_trans
  level := hlevel

/-- Profiles stand in one row by priority, id and name, and records of all kinds by their kind as
well. So records with ids of their own, as those of one kind have, are arranged in exactly one way by
their profiles, and records with keys of their own by all that counts. -/
theorem providers_stand_in_one_row :
    Ranks Profile.compare (fun p => (p.priority, p.id, p.name)) ∧
    Ranks Record.compare (fun r => (r.profile.priority, r.id, r.name, r.kind)) ∧
    (∀ rs : List Record, (rs.map Record.id).Nodup →
      ∃! ys, Arranges (fun a b => a.profile.compare b.profile) rs ys) ∧
    ∀ rs : List Record, (rs.map Record.key).Nodup → ∃! ys, Arranges Record.compare rs ys := by
  refine ⟨.of_level ?_, .of_level ?_, ?_, ?_⟩
  · intro a b
    simp only [Profile.compare_eq_iff, Prod.mk.injEq]
  · intro a b
    simp only [Record.compare_eq_iff, Prod.mk.injEq]
  · intro rs hid
    have hcmp : Std.TransCmp fun a b : Record => a.profile.compare b.profile :=
      transCmp_view Profile.compare Record.profile
    apply existsUnique_arranges
    intro a ha b hb hlevel
    exact List.inj_on_of_nodup_map hid ha hb (Profile.level_of_compare hlevel).2.1
  · intro rs hkey
    apply existsUnique_arranges
    intro a ha b hb hlevel
    exact List.inj_on_of_nodup_map hkey ha hb (Record.key_eq_of_compare hlevel)

namespace Shop

def drummer (kind : Kind) (id : ProviderId) (priority : Int64) : Record :=
  .ofProperties kind id (.ofList [(Keys.name, .text "drummer"),
    (Keys.serviceRanking, .integer priority)]) none

def acrobat (id : ProviderId) : Record :=
  .ofProperties .resource id (.ofList [(Keys.name, .text "acrobat")]) none

def parade : List Record :=
  [drummer .resource (.generated 1) 0, drummer .extension (.registered 7) 0, acrobat (.generated 4),
    drummer .resource (.registered 7) 0, drummer .application (.generated 3) 0,
    drummer .resource (.registered 9) 2]

/-- The ranking counts first, then the number; among tokens the name counts before the token. -/
def paradeInOrder : List Record :=
  [drummer .resource (.registered 9) 2, drummer .resource (.registered 7) 0,
    drummer .extension (.registered 7) 0, acrobat (.generated 4), drummer .resource (.generated 1) 0,
    drummer .application (.generated 3) 0]

theorem parade_stands_in_one_row : (parade.map Record.key).Nodup ∧
    Arranges Record.compare parade paradeInOrder ∧
    ∀ ys, Arranges Record.compare parade ys → ys = paradeInOrder := by
  have hkeys : (parade.map Record.key).Nodup := by decide +kernel
  have harranged : Arranges Record.compare parade paradeInOrder :=
    ⟨by decide +kernel, by decide +kernel⟩
  have hone := providers_stand_in_one_row.2.2.2 parade hkeys
  exact ⟨hkeys, harranged, fun ys hys => hone.unique hys harranged⟩

end Shop

end Reconciliation
