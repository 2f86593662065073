import Mathlib.Data.List.Nodup
import Reconciliation.Dictionary

/-! # What is found in a dictionary

Every change of a dictionary is told by what is found in it afterwards. Keys occur once, so a
dictionary made from pairs with keys of their own holds just these pairs.
-/
namespace Reconciliation

variable {α : Type}

theorem find?_insertEntry (k k' : String) (v : α) (es : List (String × α)) :
    ((insertEntry k v es).find? fun e => e.1 == k').map Prod.snd =
      if k = k' then some v else (es.find? fun e => e.1 == k').map Prod.snd := by
  induction es with
  | nil =>
    by_cases h : k = k'
    · simp [insertEntry, h]
    · simp [insertEntry, h]
  | cons e es ih =>
    rw [insertEntry]
    split
    · by_cases h : k = k'
      · simp [h]
      · simp [List.find?_cons, h]
    · split
      · rename_i hk
        by_cases h : k = k'
        · simp [h]
        · have he : ¬ e.1 = k' := fun he => h (hk.trans he)
          simp [h, he]
      · rename_i hk
        by_cases he : e.1 = k'
        · have h : ¬ k = k' := fun h => hk (h.trans he.symm)
          simp [h, he]
        · simpa [List.find?_cons, he] using ih

namespace Dictionary

@[simp] theorem get?_empty (k : String) : (empty : Dictionary α).get? k = none := rfl

theorem get?_insert (d : Dictionary α) (k k' : String) (v : α) :
    (d.insert k v).get? k' = if k = k' then some v else d.get? k' :=
  find?_insertEntry k k' v d.entries

theorem get?_erase (d : Dictionary α) (k k' : String) :
    (d.erase k).get? k' = if k = k' then none else d.get? k' := by
  unfold get? erase
  by_cases h : k = k'
  · subst h
    simp [List.find?_filter]
  · have hp : (fun e : String × α => (e.1 != k && e.1 == k')) = fun e => e.1 == k' := by
      funext e
      by_cases he : e.1 = k'
      · simp [he, Ne.symm h]
      · simp [he]
    simp only [List.find?_filter, Bool.decide_and, Bool.decide_eq_true, hp, h, if_false]

theorem keys_nodup (d : Dictionary α) : d.keys.Nodup := by
  rw [keys, List.Nodup, List.pairwise_map]
  exact d.sorted.imp fun h => String.ne_of_lt h

theorem get?_eq_some_iff {d : Dictionary α} {k : String} {v : α} :
    d.get? k = some v ↔ (k, v) ∈ d.entries := by
  constructor
  · intro h
    obtain ⟨⟨k', w⟩, he, rfl⟩ := Option.map_eq_some_iff.1 h
    have hk := List.find?_some he
    simp only [beq_iff_eq] at hk
    exact hk ▸ List.mem_of_find?_eq_some he
  · intro h
    cases he : d.entries.find? fun e => e.1 == k with
    | none =>
      have := List.find?_eq_none.1 he _ h
      simp at this
    | some e =>
      have hk : e.1 = k := by simpa using List.find?_some he
      have hm := List.mem_of_find?_eq_some he
      have : e = (k, v) := List.inj_on_of_nodup_map d.keys_nodup hm h hk
      simp [get?, he, this]

theorem filter_entries (d : Dictionary α) (k : String) :
    (d.entries.filter fun e => e.1 == k) = ((d.get? k).map fun v => (k, v)).toList := by
  have hn : (d.entries.map Prod.fst).Nodup := d.keys_nodup
  unfold get?
  generalize d.entries = es at hn
  induction es with
  | nil => rfl
  | cons e es ih =>
    obtain ⟨he, hn⟩ := List.nodup_cons.1 hn
    by_cases hk : e.1 = k
    · have hes : (es.filter fun e => e.1 == k) = [] := by
        apply List.filter_eq_nil_iff.2
        intro e' he' hk'
        exact he (List.mem_map.2 ⟨e', he', (beq_iff_eq.1 hk').trans hk.symm⟩)
      obtain ⟨k', v⟩ := e
      obtain rfl : k' = k := hk
      simp [hes]
    · simpa [hk] using ih hn

theorem mem_keys_iff {d : Dictionary α} {k : String} : k ∈ d.keys ↔ (d.get? k).isSome = true := by
  simp only [keys, List.mem_map, Option.isSome_iff_exists, get?_eq_some_iff, Prod.exists]
  constructor
  · rintro ⟨k, v, h, rfl⟩
    exact ⟨v, h⟩
  · rintro ⟨v, h⟩
    exact ⟨k, v, h, rfl⟩

theorem get?_foldl_insert_of_notMem {pairs : List (String × α)} {k : String} (d : Dictionary α)
    (h : k ∉ pairs.map Prod.fst) :
    (pairs.foldl (fun d e => d.insert e.1 e.2) d).get? k = d.get? k := by
  induction pairs generalizing d with
  | nil => rfl
  | cons e es ih =>
    simp only [List.map_cons, List.mem_cons, not_or] at h
    rw [List.foldl_cons, ih _ h.2, get?_insert, if_neg (Ne.symm h.1)]

theorem mem_of_get?_foldl_insert {pairs : List (String × α)} {k : String} {v : α}
    {d : Dictionary α} (h : (pairs.foldl (fun d e => d.insert e.1 e.2) d).get? k = some v) :
    (k, v) ∈ pairs ∨ d.get? k = some v := by
  induction pairs generalizing d with
  | nil => exact Or.inr h
  | cons e es ih =>
    rcases ih h with hm | hd
    · exact Or.inl (List.mem_cons_of_mem e hm)
    · rw [get?_insert] at hd
      split at hd
      · rename_i hk
        obtain rfl := Option.some.inj hd
        exact Or.inl (hk ▸ List.mem_cons_self)
      · exact Or.inr hd

theorem mem_of_get?_ofList {pairs : List (String × α)} {k : String} {v : α}
    (h : (ofList pairs).get? k = some v) : (k, v) ∈ pairs := by
  rcases mem_of_get?_foldl_insert h with hm | hd
  · exact hm
  · rw [get?_empty] at hd
    cases hd

theorem get?_ofList {pairs : List (String × α)} {k : String} {v : α}
    (hn : (pairs.map Prod.fst).Nodup) (h : (k, v) ∈ pairs) : (ofList pairs).get? k = some v := by
  unfold ofList
  generalize (empty : Dictionary α) = d
  induction pairs generalizing d with
  | nil => cases h
  | cons e es ih =>
    obtain ⟨he, hn⟩ := List.nodup_cons.1 hn
    rw [List.foldl_cons]
    rcases List.mem_cons.1 h with rfl | h
    · rw [get?_foldl_insert_of_notMem _ he, get?_insert, if_pos rfl]
    · exact ih hn h _

end Dictionary

end Reconciliation
