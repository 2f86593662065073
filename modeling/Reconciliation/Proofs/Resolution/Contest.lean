import Mathlib.Data.List.Induction
import Mathlib.Data.List.Nodup
import Reconciliation.Resolution.Contest

/-! # Who comes out of a contest

A contest sorts its entries into survivors and losers: everybody is judged once, so the two lists
together are the entries themselves, and the survivors keep their order.
-/
namespace Reconciliation

variable {α β γ : Type}

/-- What a partial function finds in a list, seen through `g`, are the entries on which it is
defined, seen through `h`. -/
theorem map_filterMap_eq_map_filter {f : α → Option β} {g : β → γ} {h : α → γ} {xs : List α}
    (hfg : ∀ x ∈ xs, ∀ y, f x = some y → g y = h x) :
    (xs.filterMap f).map g = (xs.filter fun x => (f x).isSome).map h := by
  induction xs with
  | nil => rfl
  | cons x xs ih =>
    have ih := ih fun y hy => hfg y (List.mem_cons_of_mem x hy)
    cases hx : f x with
    | none => simpa [hx] using ih
    | some y => simpa [hx, hfg x List.mem_cons_self y hx] using ih

namespace Contest

theorem judge_map_fst (c : Contest α) (winners : List (String × α)) (xs : List α) :
    (c.judge winners xs).map Prod.fst = xs := by
  induction xs generalizing winners with
  | nil => rfl
  | cons x xs ih =>
    unfold judge
    split
    · simp [ih]
    · split <;> simp [ih]

theorem verdicts_map_fst (c : Contest α) (xs : List α) : (c.verdicts xs).map Prod.fst = xs :=
  c.judge_map_fst [] xs

theorem survivors_eq (c : Contest α) (xs : List α) :
    c.survivors xs = ((c.verdicts xs).filter fun v => v.2.isNone).map Prod.fst := by
  unfold survivors
  induction c.verdicts xs with
  | nil => rfl
  | cons v vs ih => cases h : v.2 <;> simpa [h] using ih

theorem survivors_sublist (c : Contest α) (xs : List α) : (c.survivors xs).Sublist xs := by
  rw [survivors_eq]
  have h : ((c.verdicts xs).filter fun v => v.2.isNone).Sublist (c.verdicts xs) :=
    List.filter_sublist
  simpa [verdicts_map_fst] using h.map Prod.fst

theorem survivors_append_losers_perm (c : Contest α) (xs : List α) :
    (c.survivors xs ++ (c.losses xs).map Prod.fst).Perm xs := by
  have hl : (c.losses xs).map Prod.fst =
      ((c.verdicts xs).filter fun v => !v.2.isNone).map Prod.fst := by
    rw [losses, map_filterMap_eq_map_filter (h := Prod.fst)]
    · congr 2
      funext v
      cases v.2 <;> rfl
    · rintro ⟨x, o⟩ - y hy
      obtain ⟨w, -, rfl⟩ := Option.map_eq_some_iff.1 hy
      rfl
  rw [survivors_eq, hl, ← List.map_append]
  have h := (List.filter_append_perm (fun v => v.2.isNone) (c.verdicts xs)).map Prod.fst
  rwa [verdicts_map_fst] at h

def survivorsAfter (c : Contest α) (winners : List (String × α)) (xs : List α) : List α :=
  (c.judge winners xs).filterMap fun v => if v.2.isNone then some v.1 else none

section Step

variable {c : Contest α} {winners : List (String × α)} {x w : α} {xs : List α} {k : String}

theorem survivorsAfter_of_no_stake (hs : c.stake x = none) :
    c.survivorsAfter winners (x :: xs) = x :: c.survivorsAfter winners xs := by
  simp [survivorsAfter, judge, hs]

theorem survivorsAfter_of_new (hs : c.stake x = some k) (hw : winners.lookup k = none) :
    c.survivorsAfter winners (x :: xs) = x :: c.survivorsAfter ((k, x) :: winners) xs := by
  simp [survivorsAfter, judge, hs, hw]

theorem survivorsAfter_of_taken (hs : c.stake x = some k) (hw : winners.lookup k = some w) :
    c.survivorsAfter winners (x :: xs) =
      if c.spares w x then x :: c.survivorsAfter winners xs else c.survivorsAfter winners xs := by
  cases h : c.spares w x <;> simp [survivorsAfter, judge, hs, hw, h]

end Step

/-- Where a winner spares only those that it is related to, whoever comes out is related to the
winner of its stake, and so to everybody else who comes out with the same stake. -/
theorem survivorsAfter_related {c : Contest α} {R : α → α → Prop}
    (hspare : ∀ w x, c.spares w x = true → R w x) (hjoin : ∀ w x y, R w x → R w y → R x y)
    (winners : List (String × α)) (xs : List α) :
    (∀ x ∈ c.survivorsAfter winners xs, ∀ k w, c.stake x = some k → winners.lookup k = some w →
        R w x) ∧
      (c.survivorsAfter winners xs).Pairwise fun x y => ∀ k, c.stake x = some k →
        c.stake y = some k → R x y := by
  induction xs generalizing winners with
  | nil => exact ⟨fun x hx => absurd hx List.not_mem_nil, List.Pairwise.nil⟩
  | cons x xs ih =>
    cases hs : c.stake x with
    | none =>
      rw [survivorsAfter_of_no_stake hs]
      refine ⟨List.forall_mem_cons.2 ⟨?_, (ih winners).1⟩,
        List.pairwise_cons.2 ⟨?_, (ih winners).2⟩⟩
      · intro k w hk
        simp [hs] at hk
      · intro y _ k hk
        simp [hs] at hk
    | some k =>
      cases hw : winners.lookup k with
      | none =>
        have hrest := (ih ((k, x) :: winners)).1
        rw [survivorsAfter_of_new hs hw]
        refine ⟨List.forall_mem_cons.2 ⟨?_, ?_⟩, List.pairwise_cons.2 ⟨?_, (ih _).2⟩⟩
        · intro k' w hk' hlookup
          obtain rfl := Option.some.inj (hs.symm.trans hk')
          simp [hw] at hlookup
        · intro y hy k' w hk' hlookup
          by_cases hkk : k' = k
          · simp [hkk, hw] at hlookup
          · refine hrest y hy k' w hk' ?_
            rw [List.lookup_cons, beq_false_of_ne hkk]
            exact hlookup
        · intro y hy k' hk' hyk
          obtain rfl := Option.some.inj (hs.symm.trans hk')
          exact hrest y hy k x hyk (by simp)
      | some w =>
        rw [survivorsAfter_of_taken hs hw]
        split
        · rename_i hspared
          have hwx : R w x := hspare w x hspared
          refine ⟨List.forall_mem_cons.2 ⟨?_, (ih winners).1⟩,
            List.pairwise_cons.2 ⟨?_, (ih winners).2⟩⟩
          · intro k' w' hk' hlookup
            obtain rfl := Option.some.inj (hs.symm.trans hk')
            obtain rfl := Option.some.inj (hw.symm.trans hlookup)
            exact hwx
          · intro y hy k' hk' hyk
            obtain rfl := Option.some.inj (hs.symm.trans hk')
            exact hjoin w x y hwx ((ih winners).1 y hy k w hyk hw)
        · exact ih winners

theorem survivors_related {c : Contest α} {R : α → α → Prop}
    (hspare : ∀ w x, c.spares w x = true → R w x) (hjoin : ∀ w x y, R w x → R w y → R x y)
    (xs : List α) :
    (c.survivors xs).Pairwise fun x y => ∀ k, c.stake x = some k → c.stake y = some k → R x y :=
  (survivorsAfter_related hspare hjoin [] xs).2

theorem survivors_pairwise {c : Contest α} (hc : ∀ w x, c.spares w x = false) (xs : List α) :
    (c.survivors xs).Pairwise fun x y => ∀ k, c.stake x = some k → c.stake y ≠ some k := by
  have hspare : ∀ w x, c.spares w x = true → False := fun w x h => by simp [hc] at h
  exact survivors_related (R := fun _ _ => False) hspare (fun _ _ _ h _ => h) xs

theorem filter_survivors {c : Contest α} {p : α → Bool} (hp : ∀ x, p x = true → c.stake x = none)
    (xs : List α) : (c.survivors xs).filter p = xs.filter p := by
  have hall : ∀ winners, (c.survivorsAfter winners xs).filter p = xs.filter p := by
    intro winners
    induction xs generalizing winners with
    | nil => rfl
    | cons x xs ih =>
      cases hs : c.stake x with
      | none => rw [survivorsAfter_of_no_stake hs, List.filter_cons, List.filter_cons, ih]
      | some k =>
        have hx : ¬ p x = true := fun hx => by simp [hp x hx] at hs
        rw [List.filter_cons_of_neg hx]
        cases hw : winners.lookup k with
        | none => rw [survivorsAfter_of_new hs hw, List.filter_cons_of_neg hx, ih]
        | some w =>
          rw [survivorsAfter_of_taken hs hw]
          split
          · rw [List.filter_cons_of_neg hx, ih]
          · exact ih winners
  exact hall []

def holder (c : Contest α) (winners : List (String × α)) (before : List α) (k : String) :
    Option α :=
  (winners.lookup k).or (before.find? fun w => c.stake w == some k)

def beatenAfter (c : Contest α) (winners : List (String × α)) (before : List α) (x : α) :
    Option α :=
  ((c.stake x).bind (c.holder winners before)).filter fun w => !c.spares w x

/-- The winner to which an entry loses that stands behind the given ones. -/
def beaten (c : Contest α) (before : List α) (x : α) : Option α :=
  c.beatenAfter [] before x

section Holder

variable {c : Contest α} {winners : List (String × α)} {x y w : α} {xs : List α} {j k : String}

theorem holder_cons_of_ne (hy : c.stake y ≠ some k) :
    c.holder winners (y :: xs) k = c.holder winners xs k := by
  rw [holder, holder, List.find?_cons_of_neg (by simpa using hy)]

theorem holder_cons_of_new (hs : c.stake y = some j) (hw : winners.lookup j = none) :
    c.holder winners (y :: xs) k = c.holder ((j, y) :: winners) xs k := by
  by_cases hk : k = j
  · subst hk
    simp [holder, hs, hw]
  · have hy : c.stake y ≠ some k := by
      rw [hs]
      exact fun h => hk (Option.some.inj h).symm
    rw [holder_cons_of_ne hy, holder, holder, List.lookup_cons, beq_false_of_ne hk]

theorem holder_cons_of_taken (hs : c.stake y = some j) (hw : winners.lookup j = some w) :
    c.holder winners (y :: xs) k = c.holder winners xs k := by
  by_cases hk : k = j
  · subst hk
    simp [holder, hw]
  · refine holder_cons_of_ne ?_
    rw [hs]
    exact fun h => hk (Option.some.inj h).symm

theorem judge_singleton (c : Contest α) (winners : List (String × α)) (x : α) :
    c.judge winners [x] = [(x, c.beatenAfter winners [] x)] := by
  cases hs : c.stake x with
  | none => simp [judge, beatenAfter, hs]
  | some k =>
    cases hw : winners.lookup k with
    | none => simp [judge, beatenAfter, holder, hs, hw]
    | some w => cases hp : c.spares w x <;> simp [judge, beatenAfter, holder, Option.filter, hs, hw, hp]

/-- The last entry is judged by those before it, and they are judged as if it were not there. -/
theorem judge_concat (c : Contest α) (winners : List (String × α)) (xs : List α) (x : α) :
    c.judge winners (xs ++ [x]) = c.judge winners xs ++ [(x, c.beatenAfter winners xs x)] := by
  induction xs generalizing winners with
  | nil => exact c.judge_singleton winners x
  | cons y ys ih =>
    cases hs : c.stake y with
    | none =>
      have hskip : c.beatenAfter winners (y :: ys) x = c.beatenAfter winners ys x := by
        have hholder : c.holder winners (y :: ys) = c.holder winners ys :=
          funext fun k => holder_cons_of_ne (by simp [hs])
        rw [beatenAfter, beatenAfter, hholder]
      simp [judge, hs, ih, hskip]
    | some j =>
      cases hw : winners.lookup j with
      | none =>
        have hnew : c.beatenAfter winners (y :: ys) x = c.beatenAfter ((j, y) :: winners) ys x := by
          have hholder : c.holder winners (y :: ys) = c.holder ((j, y) :: winners) ys :=
            funext fun k => holder_cons_of_new hs hw
          rw [beatenAfter, beatenAfter, hholder]
        simp [judge, hs, hw, ih, hnew]
      | some w =>
        have htaken : c.beatenAfter winners (y :: ys) x = c.beatenAfter winners ys x := by
          have hholder : c.holder winners (y :: ys) = c.holder winners ys :=
            funext fun k => holder_cons_of_taken hs hw
          rw [beatenAfter, beatenAfter, hholder]
        simp [judge, hs, hw, ih, htaken]

end Holder

theorem verdicts_concat (c : Contest α) (xs : List α) (x : α) :
    c.verdicts (xs ++ [x]) = c.verdicts xs ++ [(x, c.beaten xs x)] :=
  c.judge_concat [] xs x

theorem verdicts_eq_map_zipIdx (c : Contest α) (xs : List α) :
    c.verdicts xs = xs.zipIdx.map fun p => (p.1, c.beaten (xs.take p.2) p.1) := by
  induction xs using List.reverseRecOn with
  | nil => rfl
  | append_singleton xs x ih =>
    have hbefore : (xs.zipIdx.map fun p => (p.1, c.beaten (xs.take p.2) p.1)) =
        xs.zipIdx.map fun p => (p.1, c.beaten ((xs ++ [x]).take p.2) p.1) := by
      refine List.map_congr_left fun p hp => ?_
      have hlt : p.2 < xs.length := by
        have := List.snd_lt_of_mem_zipIdx hp
        omega
      rw [List.take_append_of_le_length (by omega)]
    rw [verdicts_concat, ih, hbefore, List.zipIdx_append, List.map_append]
    simp

theorem beaten_eq_some_iff {c : Contest α} {before : List α} {w x : α} :
    c.beaten before x = some w ↔ ∃ k, c.stake x = some k ∧
      before.find? (fun y => c.stake y == some k) = some w ∧ c.spares w x = false := by
  simp only [beaten, beatenAfter, holder, List.lookup_nil, Option.none_or,
    Option.filter_eq_some_iff, Option.bind_eq_some_iff, Bool.not_eq_eq_eq_not,
    Bool.not_true]
  constructor
  · rintro ⟨⟨k, hk, hfind⟩, hspares⟩
    exact ⟨k, hk, hfind, hspares⟩
  · rintro ⟨k, hk, hfind, hspares⟩
    exact ⟨⟨k, hk, hfind⟩, hspares⟩

theorem unbeaten_of_beaten {c : Contest α} {xs : List α} {i : Nat} {w x : α}
    (h : c.beaten (xs.take i) x = some w) :
    ∃ j < i, xs[j]? = some w ∧ c.beaten (xs.take j) w = none := by
  obtain ⟨k, -, hfind, -⟩ := beaten_eq_some_iff.1 h
  obtain ⟨hw, j, hj, hjw, hfirst⟩ := List.find?_eq_some_iff_getElem.1 hfind
  have hlen : j < i ∧ j < xs.length := by
    rw [List.length_take] at hj
    omega
  have hget : xs[j]? = some w := by
    rw [List.getElem_take] at hjw
    rw [List.getElem?_eq_getElem hlen.2, hjw]
  refine ⟨j, hlen.1, hget, ?_⟩
  rw [Option.eq_none_iff_forall_ne_some]
  intro v hv
  obtain ⟨k', hk', hfind', -⟩ := beaten_eq_some_iff.1 hv
  obtain rfl : k' = k := Option.some.inj (hk'.symm.trans (by simpa using hw))
  obtain ⟨hv, l, hl, hlv, -⟩ := List.find?_eq_some_iff_getElem.1 hfind'
  have hlj : l < j := by
    have := List.length_take_le j xs
    omega
  have hnot := hfirst l hlj
  rw [List.getElem_take] at hlv hnot
  rw [hlv] at hnot
  simp [hv] at hnot

/-- Whoever competes with the first of a stake loses to it, unless it is spared. -/
theorem mem_losses_of_find? {c : Contest α} {xs : List α} {w x : α} {k : String}
    (hw : (xs.find? fun y => c.stake y == some k) = some w) (hx : x ∈ xs)
    (hk : c.stake x = some k) (hne : x ≠ w) (hspares : c.spares w x = false) :
    (x, w) ∈ c.losses xs := by
  obtain ⟨i, hi⟩ := List.mem_iff_getElem?.1 hx
  have hbeaten : c.beaten (xs.take i) x = some w := by
    refine beaten_eq_some_iff.2 ⟨k, hk, ?_, hspares⟩
    obtain ⟨hwk, front, back, rfl, hfirst⟩ := List.find?_eq_some_iff_append.1 hw
    refine List.find?_eq_some_iff_append.2 ⟨hwk, front, back.take (i - front.length - 1), ?_, hfirst⟩
    have hlt : front.length < i := by
      by_contra hle
      rcases Nat.lt_or_eq_of_le (Nat.not_lt.1 hle) with hlt | rfl
      · rw [List.getElem?_append_left hlt] at hi
        simpa [hk] using hfirst x (List.mem_of_getElem? hi)
      · rw [List.getElem?_append_right (Nat.le_refl _), Nat.sub_self] at hi
        exact hne (Option.some.inj hi).symm
    rw [List.take_append, List.take_of_length_le (Nat.le_of_lt hlt)]
    obtain ⟨n, hn⟩ : ∃ n, i - front.length = n + 1 := ⟨i - front.length - 1, by omega⟩
    rw [hn, List.take_succ_cons]
    rfl
  rw [losses, verdicts_eq_map_zipIdx, List.filterMap_map, List.mem_filterMap]
  exact ⟨(x, i), List.mem_zipIdx_iff_getElem?.2 hi, by simp [hbeaten]⟩

section Filter

variable {c : Contest α} {keep : α → Bool} {xs : List α} {x : α}

/-- Whom an entry loses to does not depend on others before it that it would not lose to, nor on
those who would only bring up such others. -/
theorem beaten_filter (h : ∀ y ∈ xs, keep y = false → ∀ k, c.stake y = some k →
      c.stake x = some k → ∀ w ∈ xs, c.stake w = some k → c.spares w x = true) :
    c.beaten (xs.filter keep) x = c.beaten xs x := by
  have unbeaten : ∀ ys, (∀ w ∈ ys, ∀ k, c.stake x = some k → c.stake w = some k →
      c.spares w x = true) → c.beaten ys x = none := by
    intro ys hys
    rw [Option.eq_none_iff_forall_ne_some]
    intro w hw
    obtain ⟨k, hk, hfind, hspares⟩ := beaten_eq_some_iff.1 hw
    have hwk : c.stake w = some k := by simpa using List.find?_some hfind
    simp [hys w (List.mem_of_find?_eq_some hfind) k hk hwk] at hspares
  by_cases hdrop : ∃ y ∈ xs, keep y = false ∧ ∃ k, c.stake y = some k ∧ c.stake x = some k
  · obtain ⟨y, hy, hkeep, k, hyk, hxk⟩ := hdrop
    have hall : ∀ w ∈ xs, ∀ k', c.stake x = some k' → c.stake w = some k' →
        c.spares w x = true := by
      intro w hw k' hxk' hwk'
      obtain rfl := Option.some.inj (hxk.symm.trans hxk')
      exact h y hy hkeep k hyk hxk w hw hwk'
    rw [unbeaten xs hall, unbeaten _ fun w hw => hall w (List.mem_filter.1 hw).1]
  · have hholder : ∀ k, c.stake x = some k →
        c.holder [] (xs.filter keep) k = c.holder [] xs k := by
      intro k hxk
      rw [holder, holder, ← List.head?_filter, ← List.head?_filter, List.filter_filter]
      congr 2
      refine List.filter_congr fun w hw => ?_
      by_cases hwk : c.stake w = some k
      · have hkeep : keep w = true := by
          by_contra hkeep
          exact hdrop ⟨w, hw, by simpa using hkeep, k, hwk, hxk⟩
        simp [hkeep]
      · simp [hwk]
    cases hx : c.stake x with
    | none => simp [beaten, beatenAfter, hx]
    | some k => simp [beaten, beatenAfter, hx, hholder k hx]

/-- Entries may be left out when nobody loses to anybody with whom they compete. -/
theorem verdicts_filter (h : ∀ y ∈ xs, keep y = false → ∀ k, c.stake y = some k →
      ∀ w ∈ xs, ∀ z ∈ xs, c.stake w = some k → c.stake z = some k → c.spares w z = true) :
    c.verdicts (xs.filter keep) = (c.verdicts xs).filter fun v => keep v.1 := by
  induction xs using List.reverseRecOn with
  | nil => rfl
  | append_singleton xs x ih =>
    have ih := ih fun y hy hkeep k hyk w hw z hz => h y (List.mem_append_left _ hy) hkeep k hyk
      w (List.mem_append_left _ hw) z (List.mem_append_left _ hz)
    rw [List.filter_append, verdicts_concat, List.filter_append, ← ih]
    by_cases hx : keep x = true
    · have hbeaten : c.beaten (xs.filter keep) x = c.beaten xs x := by
        refine beaten_filter fun y hy hkeep k hyk hxk w hw hwk => ?_
        exact h y (List.mem_append_left _ hy) hkeep k hyk w (List.mem_append_left _ hw) x
          (by simp) hwk hxk
      simp [hx, verdicts_concat, hbeaten]
    · simp [hx]

theorem survivors_filter (h : ∀ y ∈ xs, keep y = false → ∀ k, c.stake y = some k →
      ∀ w ∈ xs, ∀ z ∈ xs, c.stake w = some k → c.stake z = some k → c.spares w z = true) :
    c.survivors (xs.filter keep) = (c.survivors xs).filter keep := by
  rw [survivors_eq, survivors_eq, verdicts_filter h, List.filter_map, List.filter_filter,
    List.filter_filter]
  congr 1
  refine List.filter_congr fun v _ => ?_
  rw [Bool.and_comm]
  rfl

theorem losses_filter (h : ∀ y ∈ xs, keep y = false → ∀ k, c.stake y = some k →
      ∀ w ∈ xs, ∀ z ∈ xs, c.stake w = some k → c.stake z = some k → c.spares w z = true) :
    c.losses (xs.filter keep) = (c.losses xs).filter fun l => keep l.1 := by
  rw [losses, losses, verdicts_filter h]
  induction c.verdicts xs with
  | nil => rfl
  | cons v vs ih =>
    obtain ⟨x, o⟩ := v
    cases o <;> by_cases hx : keep x = true <;> simp [hx, ih]

end Filter

/-- What lets an entry come out: it stakes nothing, or the winner of its stake spares it or is
itself. -/
def ComesOut (c : Contest α) (winners : List (String × α)) (xs : List α) (x : α) : Prop :=
  ∀ k, c.stake x = some k →
    (∃ w, winners.lookup k = some w ∧ c.spares w x = true) ∨
      (winners.lookup k = none ∧
        ∃ w, xs.find? (fun y => c.stake y == some k) = some w ∧ (w = x ∨ c.spares w x = true))

section ComesOut

variable {c : Contest α} {winners : List (String × α)} {x y w : α} {xs : List α} {j : String}

theorem comesOut_cons_of_ne (hk : ∀ k, c.stake x = some k → c.stake y ≠ some k) :
    c.ComesOut winners (y :: xs) x ↔ c.ComesOut winners xs x := by
  refine forall_congr' fun k => forall_congr' fun hx => ?_
  rw [List.find?_cons_of_neg (by simpa using hk k hx)]

/-- Behind the first one of its stake an entry comes out as if that one had won already. -/
theorem comesOut_cons_of_new (hs : c.stake y = some j) (hw : winners.lookup j = none)
    (hxy : x ≠ y) : c.ComesOut winners (y :: xs) x ↔ c.ComesOut ((j, y) :: winners) xs x := by
  refine forall_congr' fun k => forall_congr' fun _ => ?_
  by_cases hkj : k = j
  · subst hkj
    simp [hw, hs, Ne.symm hxy]
  · have hlookup : ((j, y) :: winners).lookup k = winners.lookup k := by
      rw [List.lookup_cons, beq_false_of_ne hkj]
    have hother : c.stake y ≠ some k := by
      rw [hs]
      exact fun h => hkj (Option.some.inj h).symm
    rw [hlookup, List.find?_cons_of_neg (by simpa using hother)]

theorem comesOut_cons_of_taken (hs : c.stake y = some j) (hw : winners.lookup j = some w) :
    c.ComesOut winners (y :: xs) x ↔ c.ComesOut winners xs x := by
  refine forall_congr' fun k => forall_congr' fun _ => ?_
  by_cases hkj : k = j
  · subst hkj
    simp [hw]
  · have hother : c.stake y ≠ some k := by
      rw [hs]
      exact fun h => hkj (Option.some.inj h).symm
    rw [List.find?_cons_of_neg (by simpa using hother)]

theorem comesOut_of_taken (hs : c.stake x = some j) (hw : winners.lookup j = some w) :
    c.ComesOut winners xs x ↔ c.spares w x = true := by
  constructor
  · intro h
    rcases h j hs with ⟨w', hw', hspares⟩ | ⟨hnone, -⟩
    · rwa [Option.some.inj (hw.symm.trans hw')]
    · cases hw.symm.trans hnone
  · intro h k hk
    obtain rfl := Option.some.inj (hs.symm.trans hk)
    exact Or.inl ⟨w, hw, h⟩

end ComesOut

theorem mem_survivorsAfter_iff {c : Contest α} {xs : List α} (hn : xs.Nodup)
    (winners : List (String × α)) {x : α} :
    x ∈ c.survivorsAfter winners xs ↔ x ∈ xs ∧ c.ComesOut winners xs x := by
  induction xs generalizing winners with
  | nil => simp [survivorsAfter, judge]
  | cons y ys ih =>
    obtain ⟨hy, hys⟩ := List.nodup_cons.1 hn
    cases hs : c.stake y with
    | none =>
      rw [survivorsAfter_of_no_stake hs, List.mem_cons, List.mem_cons, ih hys]
      by_cases hxy : x = y
      · subst hxy
        simp [ComesOut, hs]
      · rw [comesOut_cons_of_ne (by simp [hs])]
        simp [hxy]
    | some j =>
      cases hw : winners.lookup j with
      | none =>
        rw [survivorsAfter_of_new hs hw, List.mem_cons, List.mem_cons, ih hys]
        by_cases hxy : x = y
        · subst hxy
          refine iff_of_true (Or.inl rfl) ⟨Or.inl rfl, ?_⟩
          intro k hk
          obtain rfl := Option.some.inj (hs.symm.trans hk)
          exact Or.inr ⟨hw, x, by simp [hs], Or.inl rfl⟩
        · rw [comesOut_cons_of_new hs hw hxy]
          simp [hxy]
      | some w =>
        have hmem : x ∈ c.survivorsAfter winners (y :: ys) ↔
            x = y ∧ c.spares w y = true ∨ x ∈ c.survivorsAfter winners ys := by
          rw [survivorsAfter_of_taken hs hw]
          cases c.spares w y <;> simp
        rw [hmem, List.mem_cons, ih hys]
        by_cases hxy : x = y
        · subst hxy
          rw [comesOut_of_taken hs hw, comesOut_of_taken hs hw]
          simp [hy]
        · rw [comesOut_cons_of_taken hs hw]
          simp [hxy]

theorem mem_survivors_iff {c : Contest α} {xs : List α} (hn : xs.Nodup) {x : α} :
    x ∈ c.survivors xs ↔ x ∈ xs ∧ ∀ k, c.stake x = some k →
      ∃ w, xs.find? (fun y => c.stake y == some k) = some w ∧ (w = x ∨ c.spares w x = true) := by
  refine (mem_survivorsAfter_iff (c := c) hn []).trans ?_
  simp [ComesOut]

/-- The entries are seen through `g`, and whoever is the first of those that compete with one another
is so in both lists. -/
structure Follows (c : Contest α) (g : α → α) (xs ys : List α) : Prop where
  perm : ys.Perm (xs.map g)
  nodup : (xs.map g).Nodup
  idle : ∀ x ∈ xs, c.stake (g x) = none ↔ c.stake x = none
  spares : ∀ w ∈ xs, ∀ x ∈ xs, c.spares (g w) (g x) = c.spares w x
  first : ∀ x ∈ xs, ∀ k k', c.stake x = some k → c.stake (g x) = some k' →
    (ys.find? fun y => c.stake y == some k') = (xs.find? fun y => c.stake y == some k).map g

namespace Follows

variable {c : Contest α} {g : α → α} {xs ys : List α}

theorem comesOut_iff (h : c.Follows g xs ys) {x : α} (hx : x ∈ xs) :
    (∀ k, c.stake (g x) = some k → ∃ w, (ys.find? fun y => c.stake y == some k) = some w ∧
        (w = g x ∨ c.spares w (g x) = true)) ↔
      ∀ k, c.stake x = some k → ∃ w, (xs.find? fun y => c.stake y == some k) = some w ∧
        (w = x ∨ c.spares w x = true) := by
  cases hk : c.stake x with
  | none => simp [(h.idle x hx).2 hk]
  | some k =>
    obtain ⟨k', hk'⟩ : ∃ k', c.stake (g x) = some k' := by
      refine Option.ne_none_iff_exists'.1 fun hnone => ?_
      cases hk.symm.trans ((h.idle x hx).1 hnone)
    have hinj : ∀ w ∈ xs, g w = g x ↔ w = x := fun w hw =>
      ⟨fun he => List.inj_on_of_nodup_map h.nodup hw hx he, congrArg g⟩
    simp only [hk', Option.some.injEq, forall_eq', h.first x hx k k' hk hk', Option.map_eq_some_iff,
      exists_exists_and_eq_and]
    refine exists_congr fun w => and_congr_right fun hw => ?_
    have hmem := List.mem_of_find?_eq_some hw
    rw [hinj w hmem, h.spares w hmem x hx]

theorem survivors_perm (h : c.Follows g xs ys) :
    (c.survivors ys).Perm ((c.survivors xs).map g) := by
  have hxs : xs.Nodup := List.Nodup.of_map g h.nodup
  have hys : ys.Nodup := h.perm.nodup_iff.2 h.nodup
  have hout : ((c.survivors xs).map g).Nodup := ((c.survivors_sublist xs).map g).nodup h.nodup
  rw [List.perm_ext_iff_of_nodup ((c.survivors_sublist ys).nodup hys) hout]
  intro y
  rw [mem_survivors_iff hys, h.perm.mem_iff, List.mem_map, List.mem_map]
  constructor
  · rintro ⟨⟨x, hx, rfl⟩, hy⟩
    exact ⟨x, (mem_survivors_iff hxs).2 ⟨hx, (h.comesOut_iff hx).1 hy⟩, rfl⟩
  · rintro ⟨x, hx, rfl⟩
    obtain ⟨hmem, hout⟩ := (mem_survivors_iff hxs).1 hx
    exact ⟨⟨x, hmem, rfl⟩, (h.comesOut_iff hmem).2 hout⟩

theorem losers_perm (h : c.Follows g xs ys) :
    ((c.losses ys).map Prod.fst).Perm (((c.losses xs).map Prod.fst).map g) := by
  have hx := (c.survivors_append_losers_perm xs).map g
  rw [List.map_append] at hx
  have hy := (c.survivors_append_losers_perm ys).trans (h.perm.trans hx.symm)
  exact (List.perm_append_left_iff _).1 ((h.survivors_perm.symm.append_right _).trans hy)

end Follows

end Contest

end Reconciliation
