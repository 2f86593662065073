import Mathlib.Algebra.GroupWithZero.Nat
import Mathlib.Data.List.Induction
import Reconciliation.Proofs.History
import Reconciliation.Proofs.Worker.StatusBoard

/-! # Watchers are told what is there

Either half of a publication may come between the two looks of a watcher. Nobody is told of a status
that was not there, and nobody waits for what is there.
-/
namespace Reconciliation

def Notice.of : Option Status → Notice
  | some s => .published s.pass
  | none => .unpublished

theorem Notice.of_ne_pending (current : Option Status) : Notice.of current ≠ .pending := by
  cases current <;> exact nofun

theorem Notice.of_eq_unpublished {current : Option Status} (h : Notice.of current = .unpublished) :
    current = none := by
  cases current with
  | none => rfl
  | some s => cases h

namespace StatusBoard

example (b : StatusBoard) (s : Status) :
    b.publish s = (b.display (some s)).announce (.of (some s)) := rfl

example (b : StatusBoard) : b.unpublish = (b.display none).announce (.of none) := rfl

def IsQuiet (b : StatusBoard) : Prop :=
  ∀ w ∈ b.watchers, b.canStep w.id = false

instance (b : StatusBoard) : Decidable b.IsQuiet :=
  inferInstanceAs (Decidable (∀ w ∈ b.watchers, b.canStep w.id = false))

theorem setWatcher_ids {b : StatusBoard} {y : Watcher} :
    (b.setWatcher y).watchers.map (·.id) = b.watchers.map (·.id) :=
  map_number_replace y

section unique

variable {b : StatusBoard} {w y : Watcher} (hunique : (b.watchers.map (·.id)).Nodup)
  (hw : w ∈ b.watchers)

include hunique hw

theorem watcher?_self : b.watcher? w.id = some w :=
  find?_number_self hunique hw

theorem watchers_perm : b.watchers.Perm (w :: (b.leave w.id).watchers) :=
  perm_cons_others hunique hw

theorem setWatcher_perm (hid : y.id = w.id) :
    (b.setWatcher y).watchers.Perm (y :: (b.leave w.id).watchers) := by
  unfold setWatcher
  rw [hid]
  exact map_perm_others hunique hw fun _ => y

/-- Whoever has no step to make waits for a notice that it has not seen. -/
theorem waits_of_not_canStep (h : b.canStep w.id = false) :
    w.stage = .waiting ∧ w.seen = b.version := by
  unfold canStep at h
  rw [watcher?_self hunique hw] at h
  simpa using h

end unique

end StatusBoard

open StatusBoard

structure Bulletin where
  board : StatusBoard
  /-- The notice that is still to be put up: a publication or an unpublication is half done. -/
  owed : Option Notice

namespace Bulletin

def start : Bulletin := ⟨.empty, none⟩

def next (d : Bulletin) (e : Event) : Bulletin where
  board := d.board.next e
  owed :=
    match e with
    | .display s => some (.of s)
    | .announce _ => none
    | .join _ _ | .step _ | .leave _ => d.owed

def after (d : Bulletin) (events : List Event) : Bulletin :=
  events.foldl next d

/-- What a watcher is told with an event: a status, or that nothing is to come. -/
def answer? (d : Bulletin) : Event → Option (Option Status)
  | .step c => (d.board.step c).2
  | .display _ | .announce _ | .join _ _ | .leave _ => none

/-- Publications and unpublications come one after the other, each in its two halves. Watchers come
under fresh numbers. -/
def Allows (d : Bulletin) : Event → Prop
  | .display _ => d.owed = none
  | .announce n => d.owed = some n
  | .join c _ => d.board.watcher? c = none
  | .step _ | .leave _ => True

instance (d : Bulletin) : (e : Event) → Decidable (d.Allows e)
  | .display _ => inferInstanceAs (Decidable (d.owed = none))
  | .announce n => inferInstanceAs (Decidable (d.owed = some n))
  | .join c _ => inferInstanceAs (Decidable (d.board.watcher? c = none))
  | .step _ | .leave _ => isTrue trivial

theorem after_concat (d : Bulletin) (events : List Event) (e : Event) :
    d.after (events ++ [e]) = (d.after events).next e := by
  simp [after]

end Bulletin

structure StatusBoard.Watcher.UpToDate (w : Watcher) (d : Bulletin) : Prop where
  past : w.seen ≤ d.board.version
  admitted : w.stage ≠ .looking → w.seen = d.board.version → d.board.notice ≠ .unpublished
  missed : w.stage = .waiting → w.seen = d.board.version → d.owed = none →
    ∀ s ∈ d.board.current, s.changeCount < w.target

namespace Bulletin

structure Consistent (d : Bulletin) : Prop where
  unique : (d.board.watchers.map (·.id)).Nodup
  owed : ∀ n ∈ d.owed, n = .of d.board.current
  settled : d.owed = none →
    d.board.notice = .of d.board.current ∨ d.board.notice = .pending ∧ d.board.current = none
  watchers : ∀ w ∈ d.board.watchers, w.UpToDate d

namespace Consistent

variable {d : Bulletin}

theorem start : start.Consistent :=
  ⟨List.nodup_nil, nofun, fun _ => Or.inr ⟨rfl, rfl⟩, nofun⟩

theorem current_of_pending (h : d.Consistent) (howed : d.owed = none)
    (hpending : d.board.notice = .pending) : d.board.current = none := by
  rcases h.settled howed with hof | ⟨-, hnone⟩
  · exact absurd (hof.symm.trans hpending) (Notice.of_ne_pending _)
  · exact hnone

theorem display (h : d.Consistent) (s : Option Status) : (d.next (.display s)).Consistent := by
  refine ⟨h.unique, ?_, nofun, ?_⟩
  · rintro n hn
    exact (Option.some.inj hn).symm
  · intro w hw
    exact ⟨(h.watchers w hw).past, (h.watchers w hw).admitted, nofun⟩

theorem announce (h : d.Consistent) {n : Notice} (hn : d.owed = some n) :
    (d.next (.announce n)).Consistent := by
  refine ⟨h.unique, nofun, fun _ => Or.inl (h.owed n hn), ?_⟩
  intro w hw
  have hpast := (h.watchers w hw).past
  have hunseen : w.seen ≠ d.board.version + 1 := by omega
  exact ⟨Nat.le_succ_of_le hpast, fun _ hseen => absurd hseen hunseen,
    fun _ hseen => absurd hseen hunseen⟩

theorem join (h : d.Consistent) {c : Nat} (hc : d.board.watcher? c = none) (target : Nat) :
    (d.next (.join c target)).Consistent := by
  refine ⟨nodup_append_fresh h.unique hc, h.owed, h.settled, ?_⟩
  intro w hw
  rcases List.mem_append.1 hw with hw | hw
  · exact ⟨(h.watchers w hw).past, (h.watchers w hw).admitted, (h.watchers w hw).missed⟩
  · obtain rfl := List.mem_singleton.1 hw
    exact ⟨Nat.le_refl _, fun hstage => absurd rfl hstage, nofun⟩

theorem leave (h : d.Consistent) (c : Nat) :
    Consistent { d with board := d.board.leave c } := by
  refine ⟨h.unique.sublist (List.filter_sublist.map _), h.owed, h.settled, ?_⟩
  intro w hw
  have hup := h.watchers w (List.mem_filter.1 hw).1
  exact ⟨hup.past, hup.admitted, hup.missed⟩

theorem setWatcher (h : d.Consistent) {y : Watcher} (hy : y.UpToDate d) :
    Consistent { d with board := d.board.setWatcher y } := by
  refine ⟨?_, h.owed, h.settled, ?_⟩
  · rw [setWatcher_ids]
    exact h.unique
  · intro w hw
    obtain ⟨v, hv, rfl⟩ := List.mem_map.1 hw
    split
    · exact ⟨hy.past, hy.admitted, hy.missed⟩
    · exact ⟨(h.watchers v hv).past, (h.watchers v hv).admitted, (h.watchers v hv).missed⟩

theorem move (h : d.Consistent) {w : Watcher} {b : StatusBoard} {a : Option (Option Status)}
    (hw : w ∈ d.board.watchers) (hmove : Move d.board w b a) :
    Consistent { d with board := b } := by
  have hup := h.watchers w hw
  cases hmove with
  | turnAway _ _ => exact h.leave w.id
  | find _ _ _ => exact h.leave w.id
  | comeEarly _ hnotice =>
    refine h.setWatcher ⟨Nat.le_refl _, fun _ _ => by simp [hnotice], ?_⟩
    intro _ _ howed s hs
    rw [h.current_of_pending howed hnotice] at hs
    cases hs
  | notice _ hnotice =>
    exact h.setWatcher ⟨Nat.le_refl _, fun _ _ => by simp [hnotice], nofun⟩
  | miss hstage hcovers =>
    refine h.setWatcher ⟨hup.past, fun _ hseen => ?_, fun _ _ _ => hcovers⟩
    exact hup.admitted (by rw [hstage]; exact nofun) hseen
  | wake _ _ => exact h.setWatcher ⟨Nat.le_refl _, fun hstage => absurd rfl hstage, nofun⟩

theorem next (h : d.Consistent) {e : Event} (he : d.Allows e) : (d.next e).Consistent := by
  cases e with
  | display s => exact h.display s
  | announce n => exact h.announce he
  | join c target => exact h.join he target
  | leave c => exact h.leave c
  | step c =>
    change Consistent { d with board := (d.board.step c).1 }
    rcases d.board.step_cases c with hstay | ⟨w, hw, hmove⟩
    · rwa [hstay]
    · exact h.move (mem_of_watcher? hw).1 hmove

/-- Where nothing is half done and nobody has a step to make, nobody waits for what is there. -/
theorem of_quiet (h : d.Consistent) (howed : d.owed = none) (hquiet : d.board.IsQuiet) :
    ∀ w ∈ d.board.watchers, d.board.notice ≠ .unpublished ∧
      ∀ s ∈ d.board.current, s.changeCount < w.target := by
  intro w hw
  obtain ⟨hstage, hseen⟩ := waits_of_not_canStep h.unique hw (hquiet w hw)
  have hup := h.watchers w hw
  exact ⟨hup.admitted (by rw [hstage]; exact nofun) hseen, hup.missed hstage hseen howed⟩

end Consistent

theorem consistent_after {events : List Event} (h : Follows next Allows start events) :
    (start.after events).Consistent :=
  h.keeps .start fun _ _ hd he => hd.next he

def Came (events : List Event) (c target : Nat) : Prop :=
  ∃ past mid, events = past ++ .join c target :: mid ∧ ∀ t, .join c t ∉ mid

def WasBlank (events : List Event) : Prop :=
  ∃ past mid, events = past ++ mid ∧ (start.after past).board.IsBlank ∧ ∀ n, .announce n ∉ mid

theorem Came.concat {events : List Event} {c target : Nat} (h : Came events c target) {e : Event}
    (he : ∀ t, e ≠ .join c t) : Came (events ++ [e]) c target := by
  obtain ⟨past, mid, rfl, hmid⟩ := h
  refine ⟨past, mid ++ [e], by rw [List.append_assoc, List.cons_append], ?_⟩
  intro t ht
  rcases List.mem_append.1 ht with ht | ht
  · exact hmid t ht
  · exact he t (List.mem_singleton.1 ht).symm

theorem WasBlank.concat {events : List Event} (h : WasBlank events) {e : Event}
    (he : ∀ n, e ≠ .announce n) : WasBlank (events ++ [e]) := by
  obtain ⟨past, mid, rfl, hblank, hmid⟩ := h
  refine ⟨past, mid ++ [e], List.append_assoc past mid [e], hblank, ?_⟩
  intro n hn
  rcases List.mem_append.1 hn with hn | hn
  · exact hmid n hn
  · exact he n (List.mem_singleton.1 hn).symm

/-- Every watcher has come for its target, and a notice that nothing is to come stands for a board
that was blank. -/
structure Traced (events : List Event) : Prop where
  came : ∀ w ∈ (start.after events).board.watchers, Came events w.id w.target
  blank : (start.after events).board.notice = .unpublished → WasBlank events

theorem Traced.concat {events : List Event} (h : Traced events)
    (hconsistent : (start.after events).Consistent) {e : Event}
    (he : (start.after events).Allows e) : Traced (events ++ [e]) := by
  have hkept : (∀ c t, e ≠ .join c t) → ∀ w ∈ (start.after events).board.watchers,
      Came (events ++ [e]) w.id w.target :=
    fun hjoin w hw => (h.came w hw).concat (hjoin w.id)
  constructor
  · rw [after_concat]
    cases e with
    | display s => exact hkept nofun
    | announce n => exact hkept nofun
    | join c target =>
      intro w hw
      rcases List.mem_append.1 hw with hold | hnew
      · refine (h.came w hold).concat ?_
        intro t hjoin
        have habsent := List.find?_eq_none.1 he w hold
        simp [(Event.join.inj hjoin).1] at habsent
      · obtain rfl := List.mem_singleton.1 hnew
        exact ⟨events, [], rfl, nofun⟩
    | step c =>
      intro w hw
      obtain ⟨v, hv, hid, htarget⟩ := step_watchers _ c w hw
      rw [← hid, ← htarget]
      exact hkept nofun v hv
    | leave c => exact fun w hw => hkept nofun w (List.mem_filter.1 hw).1
  · intro hnotice
    cases e with
    | announce n =>
      rw [after_concat] at hnotice
      have hof : .of (start.after events).board.current = Notice.unpublished :=
        (hconsistent.owed n he).symm.trans hnotice
      refine ⟨events ++ [.announce n], [], (List.append_nil _).symm, ?_, nofun⟩
      rw [after_concat]
      exact ⟨Notice.of_eq_unpublished hof, hnotice⟩
    | display s =>
      rw [after_concat] at hnotice
      exact (h.blank hnotice).concat nofun
    | join c target =>
      rw [after_concat] at hnotice
      exact (h.blank hnotice).concat nofun
    | step c =>
      rw [after_concat] at hnotice
      have hshows := (start.after events).board.step_shows c
      exact (h.blank (hshows.2.1.symm.trans hnotice)).concat nofun
    | leave c =>
      rw [after_concat] at hnotice
      exact (h.blank hnotice).concat nofun

theorem traced_after {events : List Event} (h : Follows next Allows start events) :
    Traced events := by
  induction events using List.reverseRecOn with
  | nil => exact ⟨nofun, nofun⟩
  | append_singleton events e ih =>
    obtain ⟨hbefore, he⟩ := follows_concat.1 h
    exact (ih hbefore).concat (consistent_after hbefore) he

/-- How many steps a watcher may still take as long as no notice is put up. -/
def effort (w : Watcher) (version : Nat) : Nat :=
  match w.stage with
  | .looking => 2
  | .checking => if w.seen = version then 1 else 4
  | .waiting => if w.seen = version then 0 else 3

theorem effort_le (w : Watcher) (version : Nat) : effort w version ≤ 4 := by
  unfold effort
  cases w.stage with
  | looking => exact Nat.le_add_left 2 2
  | checking | waiting =>
    dsimp only
    split <;> omega

def effortOf (b : StatusBoard) : Nat :=
  (b.watchers.map fun w => effort w b.version).sum

theorem effortOf_le (b : StatusBoard) : effortOf b ≤ 4 * b.watchers.length := by
  unfold effortOf
  induction b.watchers with
  | nil => exact Nat.le_refl 0
  | cons w rest ih =>
    have hw := effort_le w b.version
    simp only [List.map_cons, List.sum_cons, List.length_cons]
    omega

theorem effortOf_move {b b' : StatusBoard} {w : Watcher} {a : Option (Option Status)}
    (hmove : Move b w b' a) (hunique : (b.watchers.map (·.id)).Nodup) (hw : w ∈ b.watchers) :
    effortOf b' < effortOf b := by
  have hsplit : effortOf b = effort w b.version + effortOf (b.leave w.id) :=
    ((watchers_perm hunique hw).map _).sum_nat
  have hset {y : Watcher} (hid : y.id = w.id) (hlt : effort y b.version < effort w b.version) :
      effortOf (b.setWatcher y) < effortOf b := by
    have hafter : effortOf (b.setWatcher y) = effort y b.version + effortOf (b.leave w.id) :=
      ((setWatcher_perm hunique hw hid).map _).sum_nat
    omega
  have hleave (hpos : 0 < effort w b.version) : effortOf (b.leave w.id) < effortOf b := by
    omega
  cases hmove with
  | turnAway hstage _ => exact hleave (by simp [effort, hstage])
  | comeEarly hstage _ => exact hset rfl (by simp [effort, hstage])
  | notice hstage _ => exact hset rfl (by simp [effort, hstage])
  | find hstage _ _ =>
    apply hleave
    simp only [effort, hstage]
    split <;> omega
  | miss hstage _ =>
    refine hset (y := { w with stage := .waiting }) rfl ?_
    simp only [effort, hstage]
    split <;> omega
  | wake hstage hseen => exact hset rfl (by simp [effort, hstage, hseen])

def GetsOn (d : Bulletin) : Event → Prop
  | .step c => d.board.canStep c = true
  | .display _ | .announce _ | .join _ _ | .leave _ => False

theorem Consistent.length_le {d : Bulletin} (h : d.Consistent) {events : List Event}
    (hevents : Follows Bulletin.next GetsOn d events) :
    events.length + effortOf (d.after events).board ≤ effortOf d.board := by
  induction events generalizing d with
  | nil => exact Nat.le_of_eq (Nat.zero_add _)
  | cons e events ih =>
    obtain ⟨he, hevents⟩ := hevents
    cases e with
    | step c =>
      have hrest := ih (h.next (e := .step c) trivial) hevents
      have hless : effortOf (d.next (.step c)).board < effortOf d.board := by
        cases hc : d.board.watcher? c with
        | none => simp [GetsOn, canStep, hc] at he
        | some w =>
          rcases step_move hc with hmove | ⟨hstuck, -⟩
          · exact effortOf_move hmove h.unique (mem_of_watcher? hc).1
          · cases hstuck.symm.trans he
      have hafter : d.after (.step c :: events) = (d.next (.step c)).after events := rfl
      rw [hafter, List.length_cons]
      omega
    | display s => exact he.elim
    | announce n => exact he.elim
    | join c target => exact he.elim
    | leave c => exact he.elim

structure Truthful (events : List Event) : Prop where
  /-- Whoever is told of a status has come for no more than it covers, and it is on the board then. -/
  told : ∀ past c later s, events = past ++ .step c :: later →
    (start.after past).answer? (.step c) = some (some s) →
      (start.after past).board.current = some s ∧
        ∃ target, Came past c target ∧ target ≤ s.changeCount
  /-- Whoever is turned away has read so on a board that was blank when that was put up. -/
  turnedAway : ∀ past c later, events = past ++ .step c :: later →
    (start.after past).answer? (.step c) = some none →
      (start.after past).board.notice = .unpublished ∧ WasBlank past ∧ ∃ target, Came past c target
  /-- Where nothing is half done and nobody has a step to make, nobody waits for what is there. -/
  rested : (start.after events).owed = none → (start.after events).board.IsQuiet →
    ∀ w ∈ (start.after events).board.watchers, (start.after events).board.notice ≠ .unpublished ∧
      ∀ s ∈ (start.after events).board.current, s.changeCount < w.target
  /-- It comes to that before long, as long as nothing is published. -/
  settles : ∀ later, Follows next GetsOn (start.after events) later →
    later.length ≤ 4 * (start.after events).board.watchers.length

/-- Whatever is published and unpublished, and whatever watchers come and go in the meantime. -/
theorem start_truthful {events : List Event} (h : Follows next Allows start events) :
    Truthful events := by
  constructor
  · rintro past c later s rfl htold
    have htraced := traced_after (follows_append.1 h).1
    obtain ⟨hcurrent, w, hw, rfl, hcovers⟩ := of_told htold
    exact ⟨hcurrent, w.target, htraced.came w hw, hcovers⟩
  · rintro past c later rfl htold
    have htraced := traced_after (follows_append.1 h).1
    obtain ⟨hnotice, w, hw, rfl⟩ := of_turnedAway htold
    exact ⟨hnotice, htraced.blank hnotice, w.target, htraced.came w hw⟩
  · exact (consistent_after h).of_quiet
  · intro later hlater
    have hlength := (consistent_after h).length_le hlater
    have hbound := effortOf_le (start.after events).board
    omega

def statusOf (changeCount pass : Nat) : Status := ⟨changeCount, pass, none, [], [], [], []⟩

/-- The first watcher finds a status before its notice is up, and the second one finds it although it
has read the notice before. The third one finds the status taken away and waits for the notice of
that. The fourth one reads it while something is published again. -/
def crossing : List Event :=
  [.join 1 4, .step 1, .display (some (statusOf 2 1)), .join 2 2, .announce (.published 1),
    .step 2, .step 1, .step 1, .display (some (statusOf 4 2)), .step 1, .join 3 9, .step 3,
    .announce (.published 2), .step 2, .step 3, .display none, .step 3, .step 3, .step 3,
    .announce .unpublished, .step 3, .step 3, .display (some (statusOf 9 3)), .join 4 9, .step 4,
    .announce (.published 3), .join 5 10, .step 5, .step 5]

theorem crossing_truthful : Follows next Allows start crossing ∧ Truthful crossing ∧
    history next (fun d e => (d.answer? e).toList) start crossing =
      [some (statusOf 4 2), some (statusOf 4 2), none, none] ∧
    (start.after crossing).owed = none ∧ (start.after crossing).board.IsQuiet ∧
    (start.after crossing).board.watchers = [⟨5, 10, 4, .waiting⟩] := by
  have hallowed : Follows next Allows start crossing := by decide
  exact ⟨hallowed, start_truthful hallowed, by decide, rfl, by decide, rfl⟩

end Bulletin

end Reconciliation
