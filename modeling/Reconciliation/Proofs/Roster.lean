import Mathlib.Data.List.Nodup
import Mathlib.Data.List.Perm.Subperm

/-! # Rosters

In a roster no two entries bear the same number, so whatever is done to the entry with a number
leaves the others as they are.
-/
namespace Reconciliation

variable {β : Type} {number : β → Nat} {roster : List β}

theorem map_of_absent {c : Nat} (h : ∀ y ∈ roster, number y ≠ c) (f : β → β) :
    (roster.map fun y => if number y == c then f y else y) = roster := by
  conv_rhs => rw [← List.map_id roster]
  apply List.map_congr_left
  intro y hy
  have hne : (number y == c) = false := beq_false_of_ne (h y hy)
  rw [hne]
  rfl

theorem map_number_replace (y : β) :
    (roster.map fun x => if number x == number y then y else x).map number = roster.map number := by
  rw [List.map_map]
  apply List.map_congr_left
  intro x _
  by_cases hx : number x = number y
  · simp [hx]
  · simp [hx]

theorem of_find?_number {c : Nat} {x : β} (h : roster.find? (fun y => number y == c) = some x) :
    x ∈ roster ∧ number x = c := by
  have hnumber := List.find?_some h
  exact ⟨List.mem_of_find?_eq_some h, by simpa using hnumber⟩

theorem nodup_append_fresh {y : β} (hunique : (roster.map number).Nodup)
    (hfresh : roster.find? (fun x => number x == number y) = none) :
    ((roster ++ [y]).map number).Nodup := by
  rw [List.map_append]
  refine hunique.append (List.nodup_singleton (number y)) ?_
  intro c hc hc'
  obtain rfl := List.mem_singleton.1 hc'
  obtain ⟨x, hx, hnumber⟩ := List.mem_map.1 hc
  have habsent := List.find?_eq_none.1 hfresh x hx
  simp [hnumber] at habsent

section unique

variable {x : β} (hunique : (roster.map number).Nodup) (hx : x ∈ roster)

include hunique hx

theorem find?_number_self : roster.find? (fun y => number y == number x) = some x := by
  cases hfind : roster.find? (fun y => number y == number x) with
  | none =>
    have hnone := List.find?_eq_none.1 hfind x hx
    simp at hnone
  | some y =>
    obtain ⟨hy, hnumber⟩ := of_find?_number hfind
    rw [List.inj_on_of_nodup_map hunique hy hx hnumber]

theorem perm_cons_others : roster.Perm (x :: roster.filter fun y => number y != number x) := by
  have hnodup : roster.Nodup := List.Nodup.of_map _ hunique
  apply (List.perm_ext_iff_of_nodup hnodup ?_).2
  · intro y
    by_cases hy : y ∈ roster
    · by_cases hnumber : number y = number x
      · obtain rfl := List.inj_on_of_nodup_map hunique hy hx hnumber
        simp [hy]
      · simp [hy, hnumber]
    · have hne : y ≠ x := fun heq => hy (heq ▸ hx)
      simp [hy, hne]
  · exact List.nodup_cons.2 ⟨by simp, hnodup.filter _⟩

theorem map_perm_others (f : β → β) :
    (roster.map fun y => if number y == number x then f y else y).Perm
      (f x :: roster.filter fun y => number y != number x) := by
  have hothers : ∀ y ∈ roster.filter fun y => number y != number x, number y ≠ number x := by
    intro y hy
    simpa using (List.mem_filter.1 hy).2
  have hperm := (perm_cons_others hunique hx).map fun y => if number y == number x then f y else y
  rwa [List.map_cons, map_of_absent hothers, if_pos (beq_self_eq_true _)] at hperm

end unique

end Reconciliation
