import Mathlib.Data.List.Basic
import Reconciliation.Worker.Mailbox

/-! # What a step at a mailbox does

Stages and signals decide when a caller gets its turn. Apart from them a step does one of five
things to the queue and to the errands that callers are on.
-/
namespace Reconciliation.Mailbox

variable {α : Type}

def errands (b : Mailbox α) : List (Nat × Want α) :=
  b.callers.map fun x => (x.id, x.want)

def want? (b : Mailbox α) (c : Nat) : Option (Want α) :=
  (b.caller? c).map (·.want)

section frame

variable (b : Mailbox α) (c : Nat)

theorem mem_errands_of_want? {w : Want α} (h : b.want? c = some w) : (c, w) ∈ b.errands := by
  obtain ⟨x, hx, rfl⟩ := Option.map_eq_some_iff.1 h
  have hid := List.find?_some hx
  simp only [beq_iff_eq] at hid
  exact List.mem_map.2 ⟨x, List.mem_of_find?_eq_some hx, by rw [hid]⟩

@[simp] theorem mapSignal_items (w : Want α) (f : Signal → Signal) :
    (b.mapSignal w f).items = b.items := by
  cases w <;> rfl

@[simp] theorem mapSignal_closed (w : Want α) (f : Signal → Signal) :
    (b.mapSignal w f).closed = b.closed := by
  cases w <;> rfl

@[simp] theorem mapSignal_errands (w : Want α) (f : Signal → Signal) :
    (b.mapSignal w f).errands = b.errands := by
  cases w <;> rfl

@[simp] theorem mapSignal_capacity (w : Want α) (f : Signal → Signal) :
    (b.mapSignal w f).capacity = b.capacity := by
  cases w <;> rfl

@[simp] theorem mapSignal_callers (w : Want α) (f : Signal → Signal) :
    (b.mapSignal w f).callers = b.callers := by
  cases w <;> rfl

@[simp] theorem setStage_capacity (s : Stage) : (b.setStage c s).capacity = b.capacity := rfl

@[simp] theorem setStage_items (s : Stage) : (b.setStage c s).items = b.items := rfl

@[simp] theorem setStage_closed (s : Stage) : (b.setStage c s).closed = b.closed := rfl

@[simp] theorem setStage_errands (s : Stage) : (b.setStage c s).errands = b.errands := by
  unfold errands setStage
  rw [List.map_map]
  apply List.map_congr_left
  intro x _
  simp only [Function.comp]
  split <;> rfl

@[simp] theorem join_items (w : Want α) : (b.join c w).items = b.items := rfl

@[simp] theorem join_errands (w : Want α) : (b.join c w).errands = b.errands ++ [(c, w)] := by
  simp [errands, join]

@[simp] theorem leave_items : (b.leave c).items = b.items := by
  unfold leave
  split
  · rfl
  · exact mapSignal_items b _ _

@[simp] theorem leave_closed : (b.leave c).closed = b.closed := by
  unfold leave
  split
  · rfl
  · exact mapSignal_closed b _ _

@[simp] theorem leave_capacity : (b.leave c).capacity = b.capacity := by
  unfold leave
  split
  · rfl
  · exact mapSignal_capacity b _ _

theorem errands_filter : b.errands.filter (fun x => x.1 != c) =
    (b.callers.filter fun x => x.id != c).map fun x => (x.id, x.want) := by
  rw [errands, List.filter_map]
  rfl

@[simp] theorem leave_callers : (b.leave c).callers = b.callers.filter fun x => x.id != c := by
  unfold leave
  split
  · rename_i h
    symm
    apply List.filter_eq_self.2
    intro x hx
    simpa using List.find?_eq_none.1 h x hx
  · rfl

@[simp] theorem leave_errands : (b.leave c).errands = b.errands.filter fun x => x.1 != c := by
  rw [errands_filter, errands, leave_callers]

end frame

/-- What a step of a caller does: nothing but going on, or one of four ways to come away. -/
inductive Effect (b : Mailbox α) (c : Nat) (b' : Mailbox α) : Option (Outcome α) → Prop where
  | still (hitems : b'.items = b.items) (hclosed : b'.closed = b.closed)
      (herrands : b'.errands = b.errands) : Effect b c b' none
  | sent {m : α} (hwant : b.want? c = some (.send m)) (hopen : b.closed = false)
      (hroom : b.items.length < b.capacity) (hitems : b'.items = b.items ++ [m])
      (hclosed : b'.closed = b.closed)
      (herrands : b'.errands = b.errands.filter fun x => x.1 != c) : Effect b c b' (some .sent)
  | refused {m : α} (hwant : b.want? c = some (.send m)) (hshut : b.closed = true)
      (hitems : b'.items = b.items) (hclosed : b'.closed = b.closed)
      (herrands : b'.errands = b.errands.filter fun x => x.1 != c) : Effect b c b' (some .refused)
  | received {m : α} (hwant : b.want? c = some .receive) (hitems : b.items = m :: b'.items)
      (hclosed : b'.closed = b.closed)
      (herrands : b'.errands = b.errands.filter fun x => x.1 != c) :
      Effect b c b' (some (.received m))
  | drained (hwant : b.want? c = some .receive) (hshut : b.closed = true)
      (hempty : b.items = []) (hitems : b'.items = []) (hclosed : b'.closed = b.closed)
      (herrands : b'.errands = b.errands.filter fun x => x.1 != c) : Effect b c b' (some .drained)

theorem obstacle_eq_none {b : Mailbox α} (h : b.obstacle = none) :
    b.closed = false ∧ b.items.length < b.capacity := by
  unfold obstacle at h
  cases hc : b.closed with
  | true => simp [hc] at h
  | false =>
    simp only [hc, Bool.false_eq_true, if_false] at h
    by_cases hfull : b.items.length ≥ b.capacity
    · simp [hfull] at h
    · exact ⟨rfl, by omega⟩

theorem obstacle_eq_closed {b : Mailbox α} (h : b.obstacle = some .closed) : b.closed = true := by
  unfold obstacle at h
  by_cases hc : b.closed = true
  · exact hc
  · rw [if_neg hc] at h
    split at h <;> cases h

theorem obstacle_eq_full {b : Mailbox α} (h : b.obstacle = some .full) :
    b.closed = false ∧ b.capacity ≤ b.items.length := by
  unfold obstacle at h
  cases hc : b.closed with
  | true => simp [hc] at h
  | false =>
    simp only [hc, Bool.false_eq_true, if_false] at h
    by_cases hfull : b.items.length ≥ b.capacity
    · exact ⟨rfl, hfull⟩
    · simp [hfull] at h

theorem attempt_effect {b : Mailbox α} {c : Nat} {w : Want α} (h : b.want? c = some w) :
    Effect b c (b.attempt c w).1 (b.attempt c w).2 := by
  cases w with
  | send m =>
    unfold attempt
    cases ho : b.obstacle with
    | none =>
      obtain ⟨hopen, hroom⟩ := obstacle_eq_none ho
      refine .sent h hopen hroom ?_ ?_ ?_
      · rw [leave_items]
        rfl
      · rw [leave_closed]
        rfl
      · rw [leave_errands]
        rfl
    | some e =>
      cases e with
      | closed =>
        exact .refused h (obstacle_eq_closed ho) (leave_items b c) (leave_closed b c)
          (leave_errands b c)
      | full => exact .still rfl rfl (setStage_errands b c .waiting)
  | receive =>
    unfold attempt
    cases hi : b.items with
    | cons m rest =>
      refine .received (m := m) h ?_ ?_ ?_
      · rw [leave_items, hi]
      · rw [leave_closed]
      · rw [leave_errands]
        rfl
    | nil =>
      cases hc : b.closed with
      | true =>
        exact .drained h hc hi ((leave_items b c).trans hi) (leave_closed b c) (leave_errands b c)
      | false => exact .still rfl rfl (setStage_errands b c .waiting)

theorem step_effect (b : Mailbox α) (c : Nat) : Effect b c (b.step c).1 (b.step c).2 := by
  unfold step
  cases h : b.caller? c with
  | none => exact .still rfl rfl rfl
  | some x =>
    cases hs : x.stage with
    | arriving =>
      simp only [hs]
      refine .still ?_ ?_ ?_
      · rw [setStage_items, mapSignal_items]
      · rw [setStage_closed, mapSignal_closed]
      · rw [setStage_errands, mapSignal_errands]
    | enlisted =>
      simp only [hs]
      exact attempt_effect (congrArg (Option.map Caller.want) h)
    | waiting =>
      simp only [hs]
      by_cases hw : (b.signal x.want).holds c = true
      · rw [if_pos hw]
        exact .still rfl rfl rfl
      · rw [if_neg hw]
        refine .still ?_ ?_ ?_
        · rw [setStage_items, mapSignal_items]
        · rw [setStage_closed, mapSignal_closed]
        · rw [setStage_errands, mapSignal_errands]

theorem step_errands_subset (b : Mailbox α) (c : Nat) : (b.step c).1.errands ⊆ b.errands := by
  have heffect := b.step_effect c
  have hfilter : (b.errands.filter fun x => x.1 != c) ⊆ b.errands := List.filter_sublist.subset
  generalize (b.step c).1 = b', (b.step c).2 = o at heffect
  cases heffect with
  | still _ _ herrands =>
    rw [herrands]
    exact List.Subset.refl _
  | sent _ _ _ _ _ herrands => rwa [herrands]
  | refused _ _ _ _ herrands => rwa [herrands]
  | received _ _ _ herrands => rwa [herrands]
  | drained _ _ _ _ _ herrands => rwa [herrands]

end Reconciliation.Mailbox
