import Reconciliation.Worker.Debouncer

/-! # What happens to the phase

Callers, signals and alarms decide when a ticket is handed out. The phase itself changes in four
ways only: it is requested, a ticket is issued for it, the ticket comes back, and it is closed.
-/
namespace Reconciliation

namespace Phase

def requested : Phase → Phase
  | idle | queued => queued
  | running _ => running true
  | closed => closed

def returned : Phase → Phase
  | running true => queued
  | running false => idle
  | p => p

end Phase

namespace Debouncer

theorem request_phase (d : Debouncer) : d.request.1.phase = d.phase.requested := by
  unfold request
  cases h : d.phase with
  | queued | closed => exact h
  | idle | running dirty => rfl

theorem giveBack_phase (d : Debouncer) (serial : Nat) :
    (d.giveBack serial).phase = d.phase.returned := by
  unfold giveBack
  cases h : d.phase with
  | running dirty => cases dirty <;> rfl
  | idle | queued | closed => rfl

/-- What a step of a caller does: nothing but going on, or one of two ways to come away. -/
inductive Effect (d d' : Debouncer) : Option Next → Prop where
  | still (hphase : d'.phase = d.phase) (hissued : d'.issued = d.issued)
      (hheld : d'.held = d.held) : Effect d d' none
  | issued (hqueued : d.phase = .queued) (hphase : d'.phase = .running false)
      (hissued : d'.issued = d.issued + 1) (hheld : d'.held = d.held ++ [d.issued + 1]) :
      Effect d d' (some (.ticket (d.issued + 1)))
  | ended (hclosed : d.phase = .closed) (hphase : d'.phase = d.phase)
      (hissued : d'.issued = d.issued) (hheld : d'.held = d.held) : Effect d d' (some .closed)

theorem step_effect (d : Debouncer) (now c : Nat) : Effect d (d.step now c).1 (d.step now c).2 := by
  unfold step
  cases d.wait? c with
  | none => exact .still rfl rfl rfl
  | some w =>
    cases w with
    | looking =>
      cases hp : d.phase with
      | closed => exact .ended hp rfl rfl rfl
      | queued => exact .still rfl rfl rfl
      | idle =>
        by_cases hk : d.wake.kept = true
        · simp only [if_pos hk]
          exact .still hp.symm rfl rfl
        · simp only [if_neg hk]
          exact .still rfl rfl rfl
      | running dirty =>
        by_cases hk : d.wake.kept = true
        · simp only [if_pos hk]
          exact .still hp.symm rfl rfl
        · simp only [if_neg hk]
          exact .still rfl rfl rfl
    | sleeping due =>
      by_cases hc : d.phase = .closed
      · simp only [if_pos hc]
        exact .ended hc rfl rfl rfl
      · simp only [if_neg hc]
        by_cases hdue : due ≤ now
        · by_cases hq : d.phase = .queued
          · simp only [if_pos hdue, if_pos hq]
            exact .issued hq rfl rfl rfl
          · simp only [if_pos hdue, if_neg hq]
            exact .still rfl rfl rfl
        · simp only [if_neg hdue]
          exact .still rfl rfl rfl
    | listening =>
      by_cases hc : d.phase = .closed
      · simp only [if_pos hc]
        exact .ended hc rfl rfl rfl
      · simp only [if_neg hc]
        split <;> exact .still rfl rfl rfl

end Debouncer

end Reconciliation
