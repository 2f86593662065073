import Reconciliation.Proofs.Roster
import Reconciliation.Worker.StatusBoard

/-! # What a step of a watcher does

Watchers change nothing that the board shows, and nothing about one another. Whoever is told a
status has found it on the board.
-/
namespace Reconciliation.StatusBoard

structure IsBlank (b : StatusBoard) : Prop where
  current : b.current = none
  notice : b.notice = .unpublished

theorem IsBlank.of_eq {b b' : StatusBoard} (h : b.IsBlank)
    (hcurrent : b'.current = b.current) (hnotice : b'.notice = b.notice) : b'.IsBlank :=
  ⟨hcurrent.trans h.current, hnotice.trans h.notice⟩

theorem mem_of_watcher? {b : StatusBoard} {c : Nat} {w : Watcher} (h : b.watcher? c = some w) :
    w ∈ b.watchers ∧ w.id = c :=
  of_find?_number h

inductive Move (b : StatusBoard) (w : Watcher) : StatusBoard → Option (Option Status) → Prop where
  | turnAway (hstage : w.stage = .looking) (hnotice : b.notice = .unpublished) :
      Move b w (b.leave w.id) (some none)
  | comeEarly (hstage : w.stage = .looking) (hnotice : b.notice = .pending) :
      Move b w (b.setWatcher { w with seen := b.version, stage := .waiting }) none
  | notice {pass : Nat} (hstage : w.stage = .looking) (hnotice : b.notice = .published pass) :
      Move b w (b.setWatcher { w with seen := b.version, stage := .checking }) none
  | find {s : Status} (hstage : w.stage = .checking) (hcurrent : b.current = some s)
      (hcovers : w.target ≤ s.changeCount) : Move b w (b.leave w.id) (some (some s))
  | miss (hstage : w.stage = .checking) (hcovers : ∀ s ∈ b.current, s.changeCount < w.target) :
      Move b w (b.setWatcher { w with stage := .waiting }) none
  | wake (hstage : w.stage = .waiting) (hseen : w.seen ≠ b.version) :
      Move b w (b.setWatcher { w with seen := b.version, stage := .looking }) none

theorem step_move {b : StatusBoard} {w : Watcher} {c : Nat} (h : b.watcher? c = some w) :
    Move b w (b.step c).1 (b.step c).2 ∨ b.canStep c = false ∧ b.step c = (b, none) := by
  obtain ⟨-, rfl⟩ := mem_of_watcher? h
  unfold step canStep
  simp only [h]
  cases hstage : w.stage with
  | looking =>
    left
    cases hnotice : b.notice with
    | unpublished => exact .turnAway hstage hnotice
    | pending => exact .comeEarly hstage hnotice
    | published pass => exact .notice hstage hnotice
  | checking =>
    left
    dsimp only
    cases hfilter : b.current.filter fun s => w.target ≤ s.changeCount with
    | some s =>
      obtain ⟨hcurrent, hcovers⟩ := Option.filter_eq_some_iff.1 hfilter
      exact .find hstage hcurrent (by simpa using hcovers)
    | none =>
      refine .miss hstage ?_
      intro s hs
      have hshort := Option.filter_eq_none_iff.1 hfilter s hs
      simpa using hshort
  | waiting =>
    dsimp only
    by_cases hseen : w.seen = b.version
    · rw [if_pos hseen]
      exact Or.inr ⟨by simp [hseen], rfl⟩
    · rw [if_neg hseen]
      exact Or.inl (.wake hstage hseen)

/-- A step is a move, unless the watcher is not there or waits for a notice. -/
theorem step_cases (b : StatusBoard) (c : Nat) : b.step c = (b, none) ∨
    ∃ w, b.watcher? c = some w ∧ Move b w (b.step c).1 (b.step c).2 := by
  cases h : b.watcher? c with
  | none =>
    left
    simp [step, h]
  | some w =>
    rcases step_move h with hmove | ⟨-, hstay⟩
    · exact Or.inr ⟨w, rfl, hmove⟩
    · exact Or.inl hstay

theorem Move.shows {b b' : StatusBoard} {w : Watcher} {a : Option (Option Status)}
    (h : Move b w b' a) :
    b'.current = b.current ∧ b'.notice = b.notice ∧ b'.version = b.version := by
  cases h <;> exact ⟨rfl, rfl, rfl⟩

theorem step_shows (b : StatusBoard) (c : Nat) : (b.step c).1.current = b.current ∧
    (b.step c).1.notice = b.notice ∧ (b.step c).1.version = b.version := by
  rcases b.step_cases c with hstay | ⟨w, -, hmove⟩
  · rw [hstay]
    exact ⟨rfl, rfl, rfl⟩
  · exact hmove.shows

/-- Whoever is there after a move was there before, or is the watcher that made it. -/
theorem Move.watchers {b b' : StatusBoard} {w : Watcher} {a : Option (Option Status)}
    (h : Move b w b' a) {x : Watcher} (hx : x ∈ b'.watchers) :
    x ∈ b.watchers ∨ x.id = w.id ∧ x.target = w.target := by
  have hset (y : Watcher) (hy : x ∈ (b.setWatcher y).watchers) (hid : y.id = w.id)
      (htarget : y.target = w.target) : x ∈ b.watchers ∨ x.id = w.id ∧ x.target = w.target := by
    obtain ⟨v, hv, rfl⟩ := List.mem_map.1 hy
    split
    · exact Or.inr ⟨hid, htarget⟩
    · exact Or.inl hv
  cases h with
  | turnAway | find => exact Or.inl (List.mem_filter.1 hx).1
  | comeEarly | notice | miss | wake => exact hset _ hx rfl rfl

theorem step_watchers (b : StatusBoard) (c : Nat) : ∀ w ∈ (b.step c).1.watchers,
    ∃ v ∈ b.watchers, v.id = w.id ∧ v.target = w.target := by
  intro x hx
  rcases b.step_cases c with hstay | ⟨w, hw, hmove⟩
  · rw [hstay] at hx
    exact ⟨x, hx, rfl, rfl⟩
  · rcases hmove.watchers hx with hx | ⟨hid, htarget⟩
    · exact ⟨x, hx, rfl, rfl⟩
    · exact ⟨w, (mem_of_watcher? hw).1, hid.symm, htarget.symm⟩

/-- A watcher that is told a status has found it on the board, and it covers the target. -/
theorem of_told {b : StatusBoard} {c : Nat} {s : Status}
    (h : (b.step c).2 = some (some s)) : b.current = some s ∧
      ∃ w ∈ b.watchers, w.id = c ∧ w.target ≤ s.changeCount := by
  rcases b.step_cases c with hstay | ⟨w, hw, hmove⟩
  · rw [hstay] at h
    cases h
  · obtain ⟨hmem, hid⟩ := mem_of_watcher? hw
    rw [h] at hmove
    generalize (b.step c).1 = b' at hmove
    cases hmove with
    | find _ hcurrent hcovers => exact ⟨hcurrent, w, hmem, hid, hcovers⟩

theorem of_turnedAway {b : StatusBoard} {c : Nat} (h : (b.step c).2 = some none) :
    b.notice = .unpublished ∧ ∃ w ∈ b.watchers, w.id = c := by
  rcases b.step_cases c with hstay | ⟨w, hw, hmove⟩
  · rw [hstay] at h
    cases h
  · rw [h] at hmove
    generalize (b.step c).1 = b' at hmove
    cases hmove with
    | turnAway _ hnotice => exact ⟨hnotice, w, mem_of_watcher? hw⟩

end Reconciliation.StatusBoard
