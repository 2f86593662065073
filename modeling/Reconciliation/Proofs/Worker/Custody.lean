import Mathlib.Data.List.Induction
import Reconciliation.Proofs.History
import Reconciliation.Proofs.Roster
import Reconciliation.Proofs.Worker.JoinControl

/-! # The handle is in somebody's care

There is one handle. As long as the worker has not been seen to end, somebody has the handle, or it
is in its slot and everybody who waits has been told to look for it, or is about to be told.
-/
namespace Reconciliation.JoinControl

def after (j : JoinControl) (events : List Event) : JoinControl :=
  events.foldl next j

def answer? (j : JoinControl) : Event → Option Bool
  | .join _ _ => none
  | .step ended now c => (j.step ended now c).2
  | .giveUp now c => (j.giveUp now c).2

def Event.caller : Event → Nat
  | .join c _ | .step _ _ c | .giveUp _ c => c

def Event.now? : Event → Option Nat
  | .join _ _ => none
  | .step _ now _ | .giveUp now _ => some now

namespace Stage

def carries : Stage → Bool
  | holding | returning => true
  | taking | checking | waiting | announcing => false

def cares : Stage → Bool
  | holding | returning | announcing => true
  | taking | checking | waiting => false

theorem cares_iff {x : Stage} : x.cares = true ↔ x.carries = true ∨ x = .announcing := by
  cases x <;> decide

end Stage

/-- Has missed the handle and does not look for it again unless told to. -/
def Caller.Relies (x : Caller) (version : Nat) : Prop :=
  x.stage = .checking ∨ x.stage = .waiting ∧ x.seen = version

section callers

variable {j : JoinControl} {x y : Caller}

def others (j : JoinControl) (c : Nat) : List Caller :=
  j.callers.filter fun x => x.id != c

theorem setCaller_ids : (j.setCaller y).callers.map (·.id) = j.callers.map (·.id) :=
  map_number_replace y

variable (hunique : (j.callers.map (·.id)).Nodup) (hx : x ∈ j.callers)

include hunique hx

theorem caller?_self : j.caller? x.id = some x :=
  find?_number_self hunique hx

theorem callers_perm : j.callers.Perm (x :: j.others x.id) :=
  perm_cons_others hunique hx

theorem setCaller_perm (hid : y.id = x.id) :
    (j.setCaller y).callers.Perm (y :: j.others x.id) := by
  unfold setCaller
  rw [hid]
  exact map_perm_others hunique hx fun _ => y

end callers

theorem giveUp_move {j : JoinControl} {x : Caller} {c : Nat} (h : j.caller? c = some x)
    (now : Nat) :
    x.stage ≠ .announcing ∧ Move j x now (j.giveUp now c).1 (j.giveUp now c).2 ∨
      j.giveUp now c = (j, none) := by
  obtain ⟨hx, rfl⟩ := mem_of_caller? h
  unfold giveUp
  simp only [h]
  by_cases hlate : x.isLate now = true
  · rw [if_pos hlate]
    cases hstage : x.stage with
    | waiting => exact Or.inl ⟨nofun, .despair hstage hlate⟩
    | holding => exact Or.inl ⟨nofun, .tire hstage hlate⟩
    | taking | checking | returning | announcing => exact Or.inr rfl
  · rw [if_neg hlate]
    exact Or.inr rfl

/-- Nobody says that the handle is back while somebody else has missed it and is about to look at the
flag. Callers come under fresh numbers. -/
def Heeds (j : JoinControl) : Event → Prop
  | .join c _ => j.caller? c = none
  | .step _ _ c =>
    (j.caller? c).map (·.stage) = some .announcing → ∀ y ∈ j.callers, y.stage ≠ .checking
  | .giveUp _ _ => True

/-- An event that heeds the others lets somebody join, or move, or changes nothing. -/
theorem Heeds.cases {j : JoinControl} {e : Event} (h : j.Heeds e) :
    (∃ c deadline, e = .join c deadline) ∨ (j.next e = j ∧ j.answer? e = none) ∨
      ∃ now ∈ e.now?, ∃ x, j.caller? e.caller = some x ∧ Move j x now (j.next e) (j.answer? e) ∧
        (x.stage = .announcing → ∀ y ∈ j.callers, y.stage ≠ .checking) := by
  cases e with
  | join c deadline => exact Or.inl ⟨c, deadline, rfl⟩
  | step ended now c =>
    right
    cases hc : j.caller? c with
    | none =>
      left
      simp [next, answer?, step, hc]
    | some x =>
      rcases step_move hc ended now with hmove | ⟨-, hstuck⟩
      · refine Or.inr ⟨now, rfl, x, hc, hmove, ?_⟩
        intro hstage
        exact h (by rw [hc, Option.map_some, hstage])
      · left
        rw [next, answer?, hstuck]
        exact ⟨rfl, rfl⟩
  | giveUp now c =>
    right
    cases hc : j.caller? c with
    | none =>
      left
      simp [next, answer?, giveUp, hc]
    | some x =>
      rcases giveUp_move hc now with ⟨hstage, hmove⟩ | hstuck
      · exact Or.inr ⟨now, rfl, x, hc, hmove, fun h => absurd h hstage⟩
      · left
        rw [next, answer?, hstuck]
        exact ⟨rfl, rfl⟩

structure Kept (inSlot done : Bool) (version : Nat) (callers : List Caller) : Prop where
  one : inSlot.toNat + callers.countP (·.stage.carries) + done.toNat = 1
  past : ∀ x ∈ callers, x.seen ≤ version
  cared : done = false → (∃ x ∈ callers, x.Relies version) → ∃ x ∈ callers, x.stage.cares = true
  told : done = true → ∀ x ∈ callers, x.stage = .waiting → x.seen ≠ version

theorem countP_carries_cons (x : Caller) (rest : List Caller) :
    (x :: rest).countP (·.stage.carries) =
      x.stage.carries.toNat + rest.countP (·.stage.carries) := by
  rw [List.countP_cons]
  cases x.stage.carries with
  | true => exact Nat.add_comm _ _
  | false => exact (Nat.zero_add _).symm

namespace Kept

variable {inSlot inSlot' done done' : Bool} {version : Nat} {callers rest : List Caller}
  {x y : Caller}

theorem perm (h : Kept inSlot done version callers) (hperm : callers.Perm rest) :
    Kept inSlot done version rest := by
  constructor
  · rw [← hperm.countP_eq]
    exact h.one
  · intro z hz
    exact h.past z (hperm.symm.subset hz)
  · rintro hdone ⟨z, hz, hrelies⟩
    obtain ⟨k, hk, hcares⟩ := h.cared hdone ⟨z, hperm.symm.subset hz, hrelies⟩
    exact ⟨k, hperm.subset hk, hcares⟩
  · intro hdone z hz
    exact h.told hdone z (hperm.symm.subset hz)

theorem join (h : Kept inSlot done version callers) (hstage : x.stage = .taking)
    (hseen : x.seen ≤ version) : Kept inSlot done version (callers ++ [x]) := by
  constructor
  · simpa [List.countP_append, hstage, Stage.carries] using h.one
  · intro z hz
    rcases List.mem_append.1 hz with hz | hz
    · exact h.past z hz
    · rwa [List.mem_singleton.1 hz]
  · rintro hdone ⟨z, hz, hrelies⟩
    rcases List.mem_append.1 hz with hz | hz
    · obtain ⟨k, hk, hcares⟩ := h.cared hdone ⟨z, hz, hrelies⟩
      exact ⟨k, List.mem_append_left _ hk, hcares⟩
    · rw [List.mem_singleton.1 hz, Caller.Relies, hstage] at hrelies
      rcases hrelies with hz | ⟨hz, -⟩ <;> cases hz
  · intro hdone z hz hwaiting
    rcases List.mem_append.1 hz with hz | hz
    · exact h.told hdone z hz hwaiting
    · rw [List.mem_singleton.1 hz, hstage] at hwaiting
      cases hwaiting

/-- Whoever relies on others still does so when somebody who did not care for the handle is gone. -/
theorem cares_rest (h : Kept inSlot done version (x :: rest)) (hx : x.stage.cares = false)
    (hdone : done = false) (hrelies : ∃ z ∈ x :: rest, z.Relies version) :
    ∃ z ∈ rest, z.stage.cares = true := by
  obtain ⟨z, hz, hcares⟩ := h.cared hdone hrelies
  rcases List.mem_cons.1 hz with rfl | hz
  · cases hx.symm.trans hcares
  · exact ⟨z, hz, hcares⟩

/-- Where the handle is not in its slot and the worker has not been seen to end, somebody has it. -/
theorem exists_carries (h : Kept inSlot done version callers) (hslot : inSlot = false)
    (hdone : done = false) : ∃ z ∈ callers, z.stage.carries = true := by
  have hone := h.one
  rw [hslot, hdone] at hone
  apply List.countP_pos_iff.1
  simp only [Bool.toNat_false] at hone
  omega

/-- One caller changes, and the handle may go from it to the slot or the other way. -/
theorem change (h : Kept inSlot done version (x :: rest))
    (hone : inSlot'.toNat + y.stage.carries.toNat = inSlot.toNat + x.stage.carries.toNat)
    (hpast : y.seen ≤ version) (hcares : x.stage.cares = true → y.stage.cares = true)
    (hrelies : done = false → y.Relies version → ∃ z ∈ rest, z.stage.cares = true)
    (htold : done = true → y.stage ≠ .waiting) : Kept inSlot' done version (y :: rest) := by
  constructor
  · have hbefore := h.one
    rw [countP_carries_cons] at hbefore ⊢
    omega
  · intro z hz
    rcases List.mem_cons.1 hz with rfl | hz
    · exact hpast
    · exact h.past z (List.mem_cons_of_mem _ hz)
  · rintro hdone ⟨z, hz, hz'⟩
    rcases List.mem_cons.1 hz with rfl | hz
    · obtain ⟨k, hk, hkcares⟩ := hrelies hdone hz'
      exact ⟨k, List.mem_cons_of_mem _ hk, hkcares⟩
    · obtain ⟨k, hk, hkcares⟩ := h.cared hdone ⟨z, List.mem_cons_of_mem _ hz, hz'⟩
      rcases List.mem_cons.1 hk with rfl | hk
      · exact ⟨y, List.mem_cons_self, hcares hkcares⟩
      · exact ⟨k, List.mem_cons_of_mem _ hk, hkcares⟩
  · intro hdone z hz hwaiting
    rcases List.mem_cons.1 hz with rfl | hz
    · exact absurd hwaiting (htold hdone)
    · exact h.told hdone z (List.mem_cons_of_mem _ hz) hwaiting

theorem leave (h : Kept inSlot done version (x :: rest)) (hx : x.stage.cares = false) :
    Kept inSlot done version rest := by
  constructor
  · have hone := h.one
    have hcarries : x.stage.carries = false := by
      by_contra hcarries
      have hcares := Stage.cares_iff.2 (Or.inl (by simpa using hcarries))
      cases hx.symm.trans hcares
    rwa [countP_carries_cons, hcarries, Bool.toNat_false, Nat.zero_add] at hone
  · intro z hz
    exact h.past z (List.mem_cons_of_mem _ hz)
  · rintro hdone ⟨z, hz, hrelies⟩
    exact h.cares_rest hx hdone ⟨z, List.mem_cons_of_mem _ hz, hrelies⟩
  · intro hdone z hz
    exact h.told hdone z (List.mem_cons_of_mem _ hz)

theorem tell (h : Kept inSlot done version (x :: rest))
    (hone : inSlot.toNat + rest.countP (·.stage.carries) + done'.toNat = 1)
    (hheeds : done' = false → ∀ z ∈ rest, z.stage ≠ .checking) :
    Kept inSlot done' (version + 1) rest := by
  have hbehind : ∀ z ∈ rest, z.seen ≤ version := by
    intro z hz
    exact h.past z (List.mem_cons_of_mem _ hz)
  constructor
  · exact hone
  · intro z hz
    exact Nat.le_succ_of_le (hbehind z hz)
  · rintro hdone ⟨z, hz, hrelies⟩
    rcases hrelies with hchecking | ⟨-, hseen⟩
    · exact absurd hchecking (hheeds hdone z hz)
    · have hle := hbehind z hz
      omega
  · intro _ z hz _
    have hle := hbehind z hz
    omega

end Kept

structure Minded (j : JoinControl) : Prop where
  unique : (j.callers.map (·.id)).Nodup
  kept : Kept j.inSlot j.done j.version j.callers

namespace Minded

variable {j j' : JoinControl} {x : Caller} {now : Nat} {a : Option Bool}

theorem set (h : j.Minded) (hx : x ∈ j.callers) {y : Caller} {inSlot : Bool} (hid : y.id = x.id)
    (hkept : Kept inSlot j.done j.version (y :: j.others x.id)) :
    ({ j with inSlot }.setCaller y).Minded := by
  constructor
  · rw [setCaller_ids]
    exact h.unique
  · exact hkept.perm (setCaller_perm (j := { j with inSlot }) h.unique hx hid).symm

theorem drop (h : j.Minded) {c version : Nat} {done : Bool}
    (hkept : Kept j.inSlot done version (j.others c)) :
    ({ j with done, version }.leave c).Minded :=
  ⟨h.unique.sublist (List.filter_sublist.map _), hkept⟩

theorem join (h : j.Minded) {c : Nat} (hc : j.caller? c = none) (deadline : Option Nat) :
    (j.join c deadline).Minded := by
  constructor
  · exact nodup_append_fresh h.unique hc
  · exact h.kept.join rfl (Nat.le_refl _)

theorem move (h : j.Minded) (hx : x ∈ j.callers) (hmove : Move j x now j' a)
    (hheeds : x.stage = .announcing → ∀ y ∈ j.callers, y.stage ≠ .checking) : j'.Minded := by
  have hkept := h.kept.perm (callers_perm h.unique hx)
  have hone := hkept.one
  have hseen := hkept.past x List.mem_cons_self
  have hothers : j.others x.id ⊆ j.callers := List.filter_sublist.subset
  rw [countP_carries_cons] at hone
  cases hmove with
  | take hstage hslot =>
    refine h.set hx rfl (hkept.change ?_ hseen ?_ ?_ nofun)
    · simp [hstage, hslot, Stage.carries]
    · intro hcares
      rw [hstage] at hcares
      cases hcares
    · rintro - (hz | ⟨hz, -⟩) <;> cases hz
  | miss hstage hslot =>
    refine h.set hx rfl (hkept.change ?_ hseen ?_ ?_ nofun)
    · simp [hstage, Stage.carries]
    · intro hcares
      rw [hstage] at hcares
      cases hcares
    · intro hdone _
      obtain ⟨z, hz, hcarries⟩ := hkept.exists_carries hslot hdone
      rcases List.mem_cons.1 hz with rfl | hz
      · rw [hstage] at hcarries
        cases hcarries
      · exact ⟨z, hz, Stage.cares_iff.2 (Or.inl hcarries)⟩
  | learn hstage hdone => exact h.drop (hkept.leave (by rw [hstage]; rfl))
  | settle hstage hdone =>
    have hx' : x.stage.cares = false := by rw [hstage]; rfl
    refine h.set hx rfl (hkept.change ?_ (Nat.le_refl _) ?_ ?_ ?_)
    · simp [hstage, Stage.carries]
    · intro hcares
      cases hx'.symm.trans hcares
    · intro hdone _
      exact hkept.cares_rest hx' hdone ⟨x, List.mem_cons_self, Or.inl hstage⟩
    · intro hdone'
      cases hdone.symm.trans hdone'
  | wake hstage hne =>
    refine h.set hx rfl (hkept.change ?_ (Nat.le_refl _) ?_ ?_ nofun)
    · simp [hstage, Stage.carries]
    · intro hcares
      rw [hstage] at hcares
      cases hcares
    · rintro - (hz | ⟨hz, -⟩) <;> cases hz
  | despair hstage hlate => exact h.drop (hkept.leave (by rw [hstage]; rfl))
  | finish hstage =>
    refine h.drop (hkept.tell ?_ nofun)
    rw [hstage] at hone
    simp only [Stage.carries, Bool.toNat_true] at hone ⊢
    omega
  | tire hstage hlate =>
    refine h.set hx rfl (hkept.change ?_ hseen (fun _ => rfl) ?_ nofun)
    · simp [hstage, Stage.carries]
    · rintro - (hz | ⟨hz, -⟩) <;> cases hz
  | putBack hstage =>
    refine h.set hx rfl (hkept.change ?_ hseen (fun _ => rfl) ?_ nofun)
    · rw [hstage] at hone ⊢
      simp only [Stage.carries, Bool.toNat_true, Bool.toNat_false] at hone ⊢
      omega
    · rintro - (hz | ⟨hz, -⟩) <;> cases hz
  | announce hstage =>
    refine h.drop (hkept.tell ?_ ?_)
    · simpa [hstage, Stage.carries] using hone
    · intro _ z hz
      exact hheeds hstage z (hothers hz)

theorem next (h : j.Minded) {e : Event} (he : j.Heeds e) : (j.next e).Minded := by
  rcases he.cases with ⟨c, deadline, rfl⟩ | ⟨hsame, -⟩ | ⟨now, -, x, hx, hmove, hheeds⟩
  · exact h.join he deadline
  · rwa [hsame]
  · exact h.move (mem_of_caller? hx).1 hmove hheeds

/-- Somebody has the handle, or it is in its slot and all who wait have been told or are about to be
told. -/
theorem custody (h : j.Minded) (hdone : j.done = false) :
    (∃ x ∈ j.callers, x.stage.carries = true) ∨ j.inSlot = true ∧
      ((∃ x ∈ j.callers, x.stage = .announcing) ∨
        ∀ x ∈ j.callers, x.stage = .waiting → x.seen ≠ j.version) := by
  by_cases hcarries : ∃ x ∈ j.callers, x.stage.carries = true
  · exact Or.inl hcarries
  · right
    constructor
    · by_contra hslot
      exact hcarries (h.kept.exists_carries (by simpa using hslot) hdone)
    · by_contra hnobody
      obtain ⟨hannouncing, hall⟩ := not_or.1 hnobody
      apply hall
      intro x hx hwaiting hseen
      obtain ⟨y, hy, hcares⟩ := h.kept.cared hdone ⟨x, hx, Or.inr ⟨hwaiting, hseen⟩⟩
      rcases Stage.cares_iff.1 hcares with hy' | hy'
      · exact hcarries ⟨y, hy, hy'⟩
      · exact hannouncing ⟨y, hy, hy'⟩

theorem goes_on (h : j.Minded) (now : Nat) (hne : j.callers ≠ []) :
    ∃ x ∈ j.callers, j.canStep true now x.id = true ∧ j.Heeds (.step true now x.id) := by
  have hable {x : Caller} (hx : x ∈ j.callers)
      (hstage : x.stage = .waiting → x.seen ≠ j.version) : j.canStep true now x.id = true := by
    unfold canStep
    rw [caller?_self h.unique hx]
    cases hs : x.stage with
    | waiting => simp [hs, hstage hs]
    | taking | checking | holding | returning | announcing => simp [hs]
  have hheeds {x : Caller} (hx : x ∈ j.callers)
      (hstage : x.stage = .announcing → ∀ y ∈ j.callers, y.stage ≠ .checking) :
      j.Heeds (.step true now x.id) := by
    intro heq
    rw [caller?_self h.unique hx] at heq
    exact hstage (Option.some.inj heq)
  by_cases hchecking : ∃ x ∈ j.callers, x.stage = .checking
  · obtain ⟨x, hx, hstage⟩ := hchecking
    refine ⟨x, hx, hable hx ?_, hheeds hx ?_⟩
    · intro hwaiting
      cases hstage.symm.trans hwaiting
    · intro hannouncing
      cases hstage.symm.trans hannouncing
  · have hcalm {x : Caller} (hx : x ∈ j.callers) : j.Heeds (.step true now x.id) :=
      hheeds hx fun _ y hy hstage => hchecking ⟨y, hy, hstage⟩
    by_cases hcares : ∃ x ∈ j.callers, x.stage.cares = true
    · obtain ⟨x, hx, hstage⟩ := hcares
      refine ⟨x, hx, hable hx ?_, hcalm hx⟩
      intro hwaiting
      rw [hwaiting] at hstage
      cases hstage
    · obtain ⟨x, hx⟩ := List.exists_mem_of_ne_nil _ hne
      refine ⟨x, hx, hable hx ?_, hcalm hx⟩
      intro hwaiting hseen
      cases hdone : j.done with
      | true => exact h.kept.told hdone x hx hwaiting hseen
      | false => exact hcares (h.kept.cared hdone ⟨x, hx, Or.inr ⟨hwaiting, hseen⟩⟩)

end Minded

/-- How many steps a caller may still take, as long as nobody tells it anything. -/
def Caller.effort (x : Caller) (version : Nat) : Nat :=
  match x.stage with
  | .taking => 3
  | .checking | .holding => 2
  | .waiting => if x.seen = version then 1 else 4
  | .returning => 1
  | .announcing => 0

theorem Caller.effort_le (x : Caller) (version : Nat) : x.effort version ≤ 4 := by
  unfold effort
  cases x.stage with
  | waiting =>
    dsimp only
    split <;> omega
  | taking | checking | holding | returning | announcing => dsimp only; omega

theorem Caller.effort_told (x : Caller) (version : Nat) :
    x.effort (version + 1) ≤ x.effort version + 3 := by
  unfold effort
  cases x.stage with
  | waiting =>
    dsimp only
    split <;> split <;> omega
  | taking | checking | holding | returning | announcing => exact Nat.le_add_right _ 3

/-- How many steps there may still be: whoever goes may wake everybody else, so each caller counts for
what it can set off, too. -/
def effort (version : Nat) : List Caller → Nat
  | [] => 0
  | x :: rest => x.effort version + 6 * rest.length + 3 + effort version rest

section effort

variable {version : Nat} {x y : Caller} {callers rest : List Caller}

theorem effort_perm (h : callers.Perm rest) : effort version callers = effort version rest := by
  induction h with
  | nil => rfl
  | cons x hperm ih => rw [effort, effort, ih, hperm.length_eq]
  | swap x y rest =>
    simp only [effort, List.length_cons]
    omega
  | trans _ _ ih ih' => exact ih.trans ih'

theorem effort_change (h : y.effort version < x.effort version) :
    effort version (y :: rest) < effort version (x :: rest) := by
  simp only [effort]
  omega

theorem effort_leave : effort version rest < effort version (x :: rest) := by
  simp only [effort]
  omega

theorem effort_told (version : Nat) (callers : List Caller) :
    effort (version + 1) callers ≤ effort version callers + 3 * callers.length := by
  induction callers with
  | nil => exact Nat.le_refl 0
  | cons x rest ih =>
    have hx := x.effort_told version
    simp only [effort, List.length_cons]
    omega

theorem effort_tell : effort (version + 1) rest < effort version (x :: rest) := by
  have htold := effort_told version rest
  simp only [effort]
  omega

theorem effort_le (version : Nat) (callers : List Caller) :
    effort version callers ≤ (3 * callers.length + 4) * callers.length := by
  induction callers with
  | nil => exact Nat.le_refl 0
  | cons x rest ih =>
    have hx := x.effort_le version
    simp only [effort, List.length_cons]
    simp only [Nat.mul_add, Nat.add_mul, Nat.mul_assoc, Nat.mul_one] at ih ⊢
    omega

end effort

theorem Move.effort_lt {j j' : JoinControl} {x : Caller} {now : Nat} {a : Option Bool}
    (hmove : Move j x now j' a) (hunique : (j.callers.map (·.id)).Nodup) (hx : x ∈ j.callers) :
    effort j'.version j'.callers < effort j.version j.callers := by
  rw [effort_perm (callers_perm hunique hx)]
  have hset {y : Caller} (inSlot : Bool) (hid : y.id = x.id)
      (hlt : y.effort j.version < x.effort j.version) :
      effort j.version ({ j with inSlot }.setCaller y).callers <
        effort j.version (x :: j.others x.id) := by
    rw [effort_perm (setCaller_perm (j := { j with inSlot }) hunique hx hid)]
    exact effort_change hlt
  cases hmove with
  | take hstage _ => exact hset false rfl (by simp [Caller.effort, hstage])
  | miss hstage _ => exact hset j.inSlot rfl (by simp [Caller.effort, hstage])
  | learn _ _ => exact effort_leave
  | settle hstage _ => exact hset j.inSlot rfl (by simp [Caller.effort, hstage])
  | wake hstage hseen => exact hset j.inSlot rfl (by simp [Caller.effort, hstage, hseen])
  | despair _ _ => exact effort_leave
  | finish _ => exact effort_tell
  | tire hstage _ => exact hset j.inSlot rfl (by simp [Caller.effort, hstage])
  | putBack hstage => exact hset true rfl (by simp [Caller.effort, hstage])
  | announce _ => exact effort_tell

def GetsOn (j : JoinControl) : Event → Prop
  | .join _ _ => False
  | .step ended now c => ended = true ∧ j.canStep true now c = true
  | .giveUp now c =>
    ∃ x, j.caller? c = some x ∧ x.isLate now = true ∧ (x.stage = .waiting ∨ x.stage = .holding)

theorem GetsOn.move {j : JoinControl} {e : Event} (h : j.GetsOn e) :
    ∃ now, ∃ x ∈ j.callers, Move j x now (j.next e) (j.answer? e) := by
  cases e with
  | join c deadline => exact h.elim
  | step ended now c =>
    obtain ⟨rfl, hable⟩ := h
    cases hc : j.caller? c with
    | none => simp [canStep, hc] at hable
    | some x =>
      rcases step_move hc true now with hmove | ⟨hstuck, -⟩
      · exact ⟨now, x, (mem_of_caller? hc).1, hmove⟩
      · cases hable.symm.trans hstuck
  | giveUp now c =>
    obtain ⟨x, hc, hlate, hstage⟩ := h
    refine ⟨now, x, (mem_of_caller? hc).1, ?_⟩
    obtain ⟨hx, rfl⟩ := mem_of_caller? hc
    rcases hstage with hstage | hstage
    · have hdespair : j.giveUp now x.id = (j.leave x.id, some false) := by
        simp [giveUp, hc, hlate, hstage]
      rw [next, answer?, hdespair]
      exact .despair hstage hlate
    · have htire : j.giveUp now x.id = (j.setCaller { x with stage := .returning }, none) := by
        simp [giveUp, hc, hlate, hstage]
      rw [next, answer?, htire]
      exact .tire hstage hlate

theorem Minded.length_le {j : JoinControl} (h : j.Minded) {events : List Event}
    (hevents : Follows JoinControl.next (fun j e => j.GetsOn e ∧ j.Heeds e) j events) :
    events.length + effort (j.after events).version (j.after events).callers ≤
      effort j.version j.callers := by
  induction events generalizing j with
  | nil => exact Nat.le_of_eq (Nat.zero_add _)
  | cons e events ih =>
    obtain ⟨⟨hgetsOn, hheeds⟩, hevents⟩ := hevents
    obtain ⟨now, x, hx, hmove⟩ := hgetsOn.move
    have hlt := hmove.effort_lt h.unique hx
    have hrest := ih (h.next hheeds) hevents
    have hafter : j.after (e :: events) = (j.next e).after events := rfl
    rw [hafter, List.length_cons]
    omega

def Caller.WasLate (x : Caller) (moments : List Nat) : Prop :=
  ∃ due, x.deadline = some due ∧ ∃ now ∈ moments, due ≤ now

theorem Caller.WasLate.append {x : Caller} {moments : List Nat} (h : x.WasLate moments)
    (later : List Nat) : x.WasLate (moments ++ later) := by
  obtain ⟨due, hdue, now, hnow, hle⟩ := h
  exact ⟨due, hdue, now, List.mem_append_left _ hnow, hle⟩

theorem Caller.wasLate_of_isLate {x : Caller} {now : Nat} (h : x.isLate now = true)
    (moments : List Nat) : x.WasLate (moments ++ [now]) := by
  unfold isLate at h
  cases hdue : x.deadline with
  | none =>
    rw [hdue] at h
    cases h
  | some due =>
    rw [hdue] at h
    exact ⟨due, hdue, now, List.mem_append_right _ List.mem_cons_self, of_decide_eq_true h⟩

def Patient (j : JoinControl) (moments : List Nat) : Prop :=
  ∀ x ∈ j.callers, x.stage.isLeaving = true → x.WasLate moments

section patient

variable {j j' : JoinControl} {moments : List Nat} {x y : Caller} {now : Nat}

theorem Patient.append (h : j.Patient moments) (later : List Nat) :
    j.Patient (moments ++ later) := by
  intro x hx hleaving
  exact (h x hx hleaving).append later

theorem Patient.leave (h : j.Patient moments) (c : Nat) : (j.leave c).Patient moments := by
  intro x hx
  exact h x (List.mem_filter.1 hx).1

theorem Patient.setCaller (h : j.Patient moments)
    (hy : y.stage.isLeaving = true → y.WasLate moments) : (j.setCaller y).Patient moments := by
  intro z hz hleaving
  obtain ⟨x, hx, rfl⟩ := List.mem_map.1 hz
  by_cases hid : (x.id == y.id) = true
  · rw [if_pos hid] at hleaving ⊢
    exact hy hleaving
  · rw [if_neg hid] at hleaving ⊢
    exact h x hx hleaving

theorem Move.patient {a : Option Bool} (hmove : Move j x now j' a) (hx : x ∈ j.callers)
    (h : j.Patient moments) : j'.Patient (moments ++ [now]) ∧
      (a = some false → x.WasLate (moments ++ [now])) := by
  have hwas := h.append [now]
  cases hmove with
  | take _ _ => exact ⟨Patient.setCaller (j := { j with inSlot := false }) hwas nofun, nofun⟩
  | miss _ _ => exact ⟨hwas.setCaller nofun, nofun⟩
  | learn _ _ => exact ⟨hwas.leave x.id, nofun⟩
  | settle _ _ => exact ⟨hwas.setCaller nofun, nofun⟩
  | wake _ _ => exact ⟨hwas.setCaller nofun, nofun⟩
  | despair _ hlate => exact ⟨hwas.leave x.id, fun _ => Caller.wasLate_of_isLate hlate moments⟩
  | finish _ => exact ⟨Patient.leave (j := { j with done := true, version := _ }) hwas x.id, nofun⟩
  | tire _ hlate =>
    exact ⟨hwas.setCaller fun _ => Caller.wasLate_of_isLate (x := x) hlate moments, nofun⟩
  | putBack hstage =>
    have hleft : x.WasLate (moments ++ [now]) := hwas x hx (by rw [hstage]; rfl)
    exact ⟨Patient.setCaller (j := { j with inSlot := true }) hwas fun _ => hleft, nofun⟩
  | announce hstage =>
    have hleft : x.WasLate (moments ++ [now]) := hwas x hx (by rw [hstage]; rfl)
    exact ⟨Patient.leave (j := { j with version := _ }) hwas x.id, fun _ => hleft⟩

theorem Patient.next (h : j.Patient moments) {e : Event} (he : j.Heeds e) :
    (j.next e).Patient (moments ++ e.now?.toList) ∧ (j.answer? e = some false →
      ∃ x, j.caller? e.caller = some x ∧ x.WasLate (moments ++ e.now?.toList)) := by
  rcases he.cases with ⟨c, deadline, rfl⟩ | ⟨hsame, hnone⟩ | ⟨now, hnow, x, hx, hmove, -⟩
  · refine ⟨?_, nofun⟩
    intro x hx hleaving
    rcases List.mem_append.1 hx with hx | hx
    · exact (h x hx hleaving).append _
    · rw [List.mem_singleton.1 hx] at hleaving
      cases hleaving
  · rw [hsame, hnone]
    exact ⟨h.append _, nofun⟩
  · obtain ⟨hpatient, hanswer⟩ := hmove.patient (mem_of_caller? hx).1 h
    rw [hnow]
    exact ⟨hpatient, fun ha => ⟨x, hx, hanswer ha⟩⟩

end patient

theorem minded_after {events : List Event} (h : Follows next Heeds start events) :
    (start.after events).Minded := by
  refine h.keeps ?_ fun _ _ hj he => hj.next he
  refine ⟨List.nodup_nil, rfl, nofun, ?_, nofun⟩
  rintro - ⟨x, hx, -⟩
  cases hx

theorem after_concat (j : JoinControl) (events : List Event) (e : Event) :
    j.after (events ++ [e]) = (j.after events).next e := by
  simp [after]

theorem moments_concat (events : List Event) (e : Event) :
    (events ++ [e]).filterMap Event.now? = events.filterMap Event.now? ++ e.now?.toList := by
  rw [List.filterMap_append]
  exact congrArg _ (filterMap_toList Event.now? (some e))

theorem patient_after {events : List Event} (h : Follows next Heeds start events) :
    (start.after events).Patient (events.filterMap Event.now?) := by
  induction events using List.reverseRecOn with
  | nil => exact nofun
  | append_singleton events e ih =>
    obtain ⟨hbefore, he⟩ := follows_concat.1 h
    rw [after_concat, moments_concat]
    exact ((ih hbefore).next he).1

/-- What can be said of the callers after events; `past` and `later` are parts of them. -/
structure Remembered (events : List Event) : Prop where
  /-- The handle is in its slot, or one caller has it, or it has done its work. -/
  one : (start.after events).inSlot.toNat +
    (start.after events).callers.countP (·.stage.carries) + (start.after events).done.toNat = 1
  /-- Before the worker has been seen to end, somebody has the handle, or it is in its slot and
  everybody who waits has been told to look for it or is about to be told. -/
  custody : (start.after events).done = false →
    (∃ x ∈ (start.after events).callers, x.stage.carries = true) ∨
      (start.after events).inSlot = true ∧
        ((∃ x ∈ (start.after events).callers, x.stage = .announcing) ∨
          ∀ x ∈ (start.after events).callers,
            x.stage = .waiting → x.seen ≠ (start.after events).version)
  /-- Once the worker has ended, at any moment somebody can get on, -/
  goesOn : ∀ now, (start.after events).callers ≠ [] → ∃ x ∈ (start.after events).callers,
    (start.after events).canStep true now x.id = true ∧
      (start.after events).Heeds (.step true now x.id)
  /-- and there is an end to it. -/
  bounded : ∀ later, Follows next (fun j e => j.GetsOn e ∧ j.Heeds e) (start.after events) later →
    later.length ≤
      (3 * (start.after events).callers.length + 4) * (start.after events).callers.length
  /-- Nobody is told that the worker has not ended unless its deadline was there. -/
  answered : ∀ past e later, events = past ++ e :: later →
    (start.after past).answer? e = some false →
    ∃ x, (start.after past).caller? e.caller = some x ∧
      x.WasLate ((past ++ [e]).filterMap Event.now?)

/-- However many callers come, with whatever deadlines, and whenever the worker ends. -/
theorem start_remembered {events : List Event} (h : Follows next Heeds start events) :
    Remembered events := by
  have hminded := minded_after h
  constructor
  · exact hminded.kept.one
  · exact hminded.custody
  · exact hminded.goes_on
  · intro later hlater
    have hle := hminded.length_le hlater
    have hbound := effort_le (start.after events).version (start.after events).callers
    omega
  · rintro past e later rfl hanswer
    rw [follows_append] at h
    obtain ⟨hpast, he, -⟩ := h
    rw [moments_concat]
    exact ((patient_after hpast).next he).2 hanswer

instance (j : JoinControl) : (e : Event) → Decidable (j.Heeds e)
  | .join c _ => inferInstanceAs (Decidable (j.caller? c = none))
  | .step _ _ c => inferInstanceAs (Decidable
      ((j.caller? c).map (·.stage) = some .announcing → ∀ y ∈ j.callers, y.stage ≠ .checking))
  | .giveUp _ _ => isTrue trivial

/-- The first caller gives up and hands over to the second one, who is told in time. The third one
finds the flag set. -/
def handedOver : List Event :=
  [.join 1 (some 10), .join 2 none, .step false 0 1, .step false 0 2, .step false 5 2,
    .step false 10 1, .step false 10 1, .step false 10 1, .step false 10 2, .join 3 (some 20),
    .step false 10 2, .step false 12 3, .step true 15 2, .step true 15 3]

theorem handedOver_remembered : Follows next Heeds start handedOver ∧ Remembered handedOver ∧
    history next (fun j e => (j.answer? e).toList) start handedOver = [false, true, true] ∧
    (start.after handedOver).callers = [] := by
  have hheeds : Follows next Heeds start handedOver := by decide
  exact ⟨hheeds, start_remembered hheeds, by decide, rfl⟩

/-- The second caller misses the handle; the first one puts it back and says so; only then does the
second one look at the flag. -/
def missed : List Event :=
  [.join 1 (some 10), .join 2 none, .step false 0 1, .step false 0 2, .step false 10 1,
    .step false 10 1, .step false 10 1, .step false 10 2]

/-- The handle is in its slot and nobody is there but the second caller, who waits for ever, even
though the worker ends. -/
theorem missed_forgotten : (start.after missed).done = false ∧
    (start.after missed).inSlot = true ∧
    (start.after missed).callers = [⟨2, none, (start.after missed).version, .waiting⟩] ∧
    ∀ ended now, (start.after missed).step ended now 2 = (start.after missed, none) :=
  ⟨rfl, rfl, rfl, fun _ _ => rfl⟩

end Reconciliation.JoinControl
