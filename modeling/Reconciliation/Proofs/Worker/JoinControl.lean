import Reconciliation.Proofs.Roster
import Reconciliation.Worker.JoinControl

/-! # Waiting alone for a worker to end

Whoever waits alone until a certain moment gives up when it has come, and not before.
-/
namespace Reconciliation.JoinControl

variable {j : JoinControl} {c due : Nat}

theorem mem_of_caller? {x : Caller} (h : j.caller? c = some x) : x ∈ j.callers ∧ x.id = c :=
  of_find?_number h

inductive Move (j : JoinControl) (x : Caller) (now : Nat) : JoinControl → Option Bool → Prop where
  | take (hstage : x.stage = .taking) (hslot : j.inSlot = true) :
      Move j x now ({ j with inSlot := false }.setCaller { x with stage := .holding }) none
  | miss (hstage : x.stage = .taking) (hslot : j.inSlot = false) :
      Move j x now (j.setCaller { x with stage := .checking }) none
  | learn (hstage : x.stage = .checking) (hdone : j.done = true) :
      Move j x now (j.leave x.id) (some true)
  | settle (hstage : x.stage = .checking) (hdone : j.done = false) :
      Move j x now (j.setCaller { x with seen := j.version, stage := .waiting }) none
  | wake (hstage : x.stage = .waiting) (hseen : x.seen ≠ j.version) :
      Move j x now (j.setCaller { x with seen := j.version, stage := .taking }) none
  | despair (hstage : x.stage = .waiting) (hlate : x.isLate now = true) :
      Move j x now (j.leave x.id) (some false)
  | finish (hstage : x.stage = .holding) :
      Move j x now ({ j with done := true, version := j.version + 1 }.leave x.id) (some true)
  | tire (hstage : x.stage = .holding) (hlate : x.isLate now = true) :
      Move j x now (j.setCaller { x with stage := .returning }) none
  | putBack (hstage : x.stage = .returning) :
      Move j x now ({ j with inSlot := true }.setCaller { x with stage := .announcing }) none
  | announce (hstage : x.stage = .announcing) :
      Move j x now ({ j with version := j.version + 1 }.leave x.id) (some false)

theorem step_move {j : JoinControl} {x : Caller} {c : Nat} (h : j.caller? c = some x)
    (ended : Bool) (now : Nat) :
    Move j x now (j.step ended now c).1 (j.step ended now c).2 ∨
      j.canStep ended now c = false ∧ j.step ended now c = (j, none) := by
  obtain ⟨hx, rfl⟩ := mem_of_caller? h
  unfold step canStep
  simp only [h]
  cases hstage : x.stage with
  | taking =>
    dsimp only
    left
    by_cases hslot : j.inSlot = true
    · rw [if_pos hslot]
      exact .take hstage hslot
    · rw [if_neg hslot]
      exact .miss hstage (by simpa using hslot)
  | checking =>
    dsimp only
    left
    by_cases hdone : j.done = true
    · rw [if_pos hdone]
      exact .learn hstage hdone
    · rw [if_neg hdone]
      exact .settle hstage (by simpa using hdone)
  | waiting =>
    dsimp only
    by_cases hseen : x.seen = j.version
    · rw [if_neg (not_not.2 hseen)]
      by_cases hlate : x.isLate now = true
      · rw [if_pos hlate]
        exact Or.inl (.despair hstage hlate)
      · rw [if_neg hlate]
        exact Or.inr ⟨by simp [hseen, hlate], rfl⟩
    · rw [if_pos hseen]
      exact Or.inl (.wake hstage hseen)
  | holding =>
    dsimp only
    by_cases hended : ended = true
    · rw [if_pos hended]
      exact Or.inl (.finish hstage)
    · rw [if_neg hended]
      by_cases hlate : x.isLate now = true
      · rw [if_pos hlate]
        exact Or.inl (.tire hstage hlate)
      · rw [if_neg hlate]
        exact Or.inr ⟨by simp [hended, hlate], rfl⟩
  | returning => exact Or.inl (.putBack hstage)
  | announcing => exact Or.inl (.announce hstage)

def Stage.isLeaving : Stage → Bool
  | .returning | .announcing => true
  | .taking | .checking | .waiting | .holding => false

/-- The only caller gives up at a certain moment, or has done so when something was the case. -/
def WaitsUntil (j : JoinControl) (c due : Nat) (late : Prop) : Prop :=
  ∃ x, j.callers = [x] ∧ x.id = c ∧ x.deadline = some due ∧ (x.stage.isLeaving = true → late)

theorem setCaller_sole {x y : Caller} (h : j.callers = [x]) (hid : y.id = x.id) :
    (j.setCaller y).callers = [y] := by
  simp [setCaller, h, hid]

theorem WaitsUntil.join (h : j.callers = []) (c due : Nat) {late : Prop} :
    (j.join c (some due)).WaitsUntil c due late :=
  ⟨⟨c, some due, j.version, .taking⟩, by rw [JoinControl.join, h, List.nil_append], rfl, rfl, nofun⟩

theorem WaitsUntil.mono {late late' : Prop} (h : j.WaitsUntil c due late) (himp : late → late') :
    j.WaitsUntil c due late' := by
  obtain ⟨x, hcallers, hid, hdue, hlate⟩ := h
  exact ⟨x, hcallers, hid, hdue, himp ∘ hlate⟩

theorem WaitsUntil.step {late : Prop} (h : j.WaitsUntil c due late) (ended : Bool) (now : Nat) :
    ((j.step ended now c).2 = none → (j.step ended now c).1.WaitsUntil c due (late ∨ due ≤ now)) ∧
      ((j.step ended now c).2 = some false → late ∨ due ≤ now) := by
  obtain ⟨x, hcallers, rfl, hdue, hlate⟩ := h
  have hcaller : j.caller? x.id = some x := by simp [caller?, hcallers]
  have hstay : j.WaitsUntil x.id due (late ∨ due ≤ now) := ⟨x, hcallers, rfl, hdue, Or.inl ∘ hlate⟩
  have hset {y : Caller} (j' : JoinControl) (hj : j'.callers = j.callers) (hid : y.id = x.id)
      (hy : y.deadline = some due) (hleaving : y.stage.isLeaving = true → late ∨ due ≤ now) :
      (j'.setCaller y).WaitsUntil x.id due (late ∨ due ≤ now) :=
    ⟨y, setCaller_sole (hj.trans hcallers) hid, hid, hy, hleaving⟩
  have hpast (hlast : x.isLate now = true) : due ≤ now := by simpa [Caller.isLate, hdue] using hlast
  rcases step_move hcaller ended now with hmove | ⟨-, hstuck⟩
  · generalize (j.step ended now x.id).1 = j', (j.step ended now x.id).2 = answer at hmove
    cases hmove with
    | take _ _ => exact ⟨fun _ => hset _ rfl rfl hdue nofun, nofun⟩
    | miss _ _ => exact ⟨fun _ => hset _ rfl rfl hdue nofun, nofun⟩
    | learn _ _ => exact ⟨nofun, nofun⟩
    | settle _ _ => exact ⟨fun _ => hset _ rfl rfl hdue nofun, nofun⟩
    | wake _ _ => exact ⟨fun _ => hset _ rfl rfl hdue nofun, nofun⟩
    | despair _ hlast => exact ⟨nofun, fun _ => Or.inr (hpast hlast)⟩
    | finish _ => exact ⟨nofun, nofun⟩
    | tire _ hlast => exact ⟨fun _ => hset _ rfl rfl hdue fun _ => Or.inr (hpast hlast), nofun⟩
    | putBack hstage =>
      have hleaving : late := hlate (by rw [hstage]; rfl)
      exact ⟨fun _ => hset _ rfl rfl hdue fun _ => Or.inl hleaving, nofun⟩
    | announce hstage =>
      have hleaving : late := hlate (by rw [hstage]; rfl)
      exact ⟨nofun, fun _ => Or.inl hleaving⟩
  · rw [hstuck]
    exact ⟨fun _ => hstay, nofun⟩

end Reconciliation.JoinControl
