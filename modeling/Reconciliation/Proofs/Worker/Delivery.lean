import Mathlib.Data.List.Induction
import Mathlib.Data.List.Perm.Basic
import Reconciliation.Proofs.History
import Reconciliation.Proofs.Worker.Mailbox

/-! # A mailbox delivers what it has accepted

Senders, receivers and those who give up take their steps in any order. What has been received,
followed by what is queued, is what has been accepted, in that order.
-/
namespace Reconciliation.Mailbox

variable {α : Type}

/-- What an event makes known: how a message fared that was sent without waiting, or what a caller
came away with. -/
inductive Answer (α : Type) where
  | tried (message : α) (result : Except SendError Unit)
  | done (caller : Nat) (want : Want α) (outcome : Outcome α)

namespace Answer

def accepted? : Answer α → Option α
  | tried m (.ok _) | done _ (.send m) .sent => some m
  | _ => none

def refused? : Answer α → Option α
  | tried m (.error _) | done _ (.send m) .refused => some m
  | _ => none

def received? : Answer α → Option α
  | done _ _ (.received m) => some m
  | _ => none

end Answer

def answer? (b : Mailbox α) : Event α → Option (Answer α)
  | .trySend m => some (.tried m (b.trySend m).2)
  | .step c => (b.want? c).bind fun w => (b.step c).2.map (.done c w)
  | .join _ _ | .leave _ | .close => none

def after (b : Mailbox α) (events : List (Event α)) : Mailbox α :=
  events.foldl next b

def answers (b : Mailbox α) (events : List (Event α)) : List (Answer α) :=
  history next (fun b e => (b.answer? e).toList) b events

theorem after_concat (b : Mailbox α) (events : List (Event α)) (e : Event α) :
    b.after (events ++ [e]) = (b.after events).next e := by
  simp [after]

theorem answers_concat (b : Mailbox α) (events : List (Event α)) (e : Event α) :
    b.answers (events ++ [e]) = b.answers events ++ ((b.after events).answer? e).toList :=
  history_concat next _ b events e

theorem trySend_of_obstacle {b : Mailbox α} {o : SendError} (h : b.obstacle = some o) (m : α) :
    b.trySend m = (b, .error o) := by
  rw [trySend, h]

theorem trySend_of_no_obstacle {b : Mailbox α} (h : b.obstacle = none) (m : α) :
    b.trySend m = (b.push m, .ok ()) := by
  rw [trySend, h]

/-- The law of the queue for one event: what is received leaves at the head, what is accepted comes
in at the end, and nothing else changes it. -/
theorem next_items (b : Mailbox α) (e : Event α) :
    ((b.answer? e).bind Answer.received?).toList ++ (b.next e).items =
      b.items ++ ((b.answer? e).bind Answer.accepted?).toList := by
  cases e with
  | trySend m =>
    cases ho : b.obstacle with
    | some o => simp [answer?, next, trySend_of_obstacle ho, Answer.received?, Answer.accepted?]
    | none =>
      simp [answer?, next, trySend_of_no_obstacle ho, push, Answer.received?, Answer.accepted?]
  | join c w => simp [answer?, next]
  | leave c => simp [answer?, next]
  | close => simp [answer?, next, close]
  | step c =>
    have heffect := b.step_effect c
    simp only [answer?, next]
    generalize (b.step c).1 = b', (b.step c).2 = o at heffect
    cases heffect with
    | still hitems _ _ => simp [hitems]
    | sent hwant _ _ hitems _ _ => simp [hwant, hitems, Answer.received?, Answer.accepted?]
    | refused hwant _ hitems _ _ => simp [hwant, hitems, Answer.received?, Answer.accepted?]
    | received hwant hitems _ _ => simp [hwant, hitems, Answer.received?, Answer.accepted?]
    | drained hwant _ hempty hitems _ _ =>
      simp [hwant, hempty, hitems, Answer.received?, Answer.accepted?]

theorem step_capacity (b : Mailbox α) (c : Nat) : (b.step c).1.capacity = b.capacity := by
  unfold step
  cases b.caller? c with
  | none => rfl
  | some x =>
    cases hs : x.stage with
    | arriving =>
      simp only [hs]
      exact mapSignal_capacity b _ _
    | enlisted =>
      simp only [hs]
      unfold attempt
      split
      · split
        · exact leave_capacity _ c
        · exact leave_capacity b c
        · rfl
      · split
        · exact leave_capacity _ c
        · split
          · exact leave_capacity b c
          · rfl
    | waiting =>
      simp only [hs]
      split
      · rfl
      · exact mapSignal_capacity b _ _

@[simp] theorem next_capacity (b : Mailbox α) (e : Event α) : (b.next e).capacity = b.capacity := by
  cases e with
  | trySend m =>
    cases ho : b.obstacle with
    | some o => rw [next, trySend_of_obstacle ho]
    | none =>
      rw [next, trySend_of_no_obstacle ho]
      rfl
  | join c w => rfl
  | step c => exact step_capacity b c
  | leave c => exact leave_capacity b c
  | close => rfl

theorem room_of_accepted {b : Mailbox α} {e : Event α} {m : α}
    (h : (b.answer? e).bind Answer.accepted? = some m) :
    b.closed = false ∧ b.items.length < b.capacity := by
  cases e with
  | trySend m' =>
    cases ho : b.obstacle with
    | some o => simp [answer?, trySend_of_obstacle ho, Answer.accepted?] at h
    | none => exact obstacle_eq_none ho
  | step c =>
    have heffect := b.step_effect c
    simp only [answer?] at h
    generalize (b.step c).1 = b', (b.step c).2 = o at heffect h
    cases heffect with
    | sent _ hopen hroom _ _ _ => exact ⟨hopen, hroom⟩
    | still _ _ _ => simp at h
    | refused hwant _ _ _ _ => simp [hwant, Answer.accepted?] at h
    | received hwant _ _ _ => simp [hwant, Answer.accepted?] at h
    | drained hwant _ _ _ _ _ => simp [hwant, Answer.accepted?] at h
  | join c w => simp [answer?] at h
  | leave c => simp [answer?] at h
  | close => simp [answer?] at h

theorem accepted_of_closed {b : Mailbox α} (h : b.closed = true) (e : Event α) :
    (b.answer? e).bind Answer.accepted? = none := by
  rw [Option.eq_none_iff_forall_ne_some]
  intro m hm
  rw [(room_of_accepted hm).1] at h
  cases h

theorem next_closed {b : Mailbox α} (h : b.closed = true) (e : Event α) :
    (b.next e).closed = true := by
  cases e with
  | trySend m =>
    cases ho : b.obstacle with
    | some o => rwa [next, trySend_of_obstacle ho]
    | none =>
      rw [next, trySend_of_no_obstacle ho]
      exact h
  | join c w => exact h
  | leave c => rwa [next, leave_closed]
  | close => rfl
  | step c =>
    have heffect := b.step_effect c
    rw [next]
    generalize (b.step c).1 = b', (b.step c).2 = o at heffect
    cases heffect <;> exact Eq.trans ‹_› h

theorem drained_of_answer {b : Mailbox α} {e : Event α} {c : Nat} {w : Want α}
    (h : b.answer? e = some (.done c w .drained)) : b.closed = true ∧ b.items = [] := by
  cases e with
  | step c' =>
    have heffect := b.step_effect c'
    simp only [answer?] at h
    generalize (b.step c').1 = b', (b.step c').2 = o at heffect h
    obtain ⟨w', -, ho⟩ := Option.bind_eq_some_iff.1 h
    obtain ⟨o', rfl, hdone⟩ := Option.map_eq_some_iff.1 ho
    obtain rfl : o' = .drained := (Answer.done.inj hdone).2.2
    cases heffect with
    | drained _ hshut hempty _ _ _ => exact ⟨hshut, hempty⟩
  | trySend m => cases h
  | join c' w' => cases h
  | leave c' => cases h
  | close => cases h

def Want.message? : Want α → Option α
  | .send m => some m
  | .receive => none

def offers (b : Mailbox α) : List α :=
  b.errands.filterMap fun x => x.2.message?

def Event.offered? : Event α → Option α
  | .trySend m | .join _ (.send m) => some m
  | _ => none

theorem offers_sublist {b b' : Mailbox α} {c : Nat}
    (herrands : b'.errands = b.errands.filter fun x => x.1 != c) : b'.offers.Sublist b.offers := by
  rw [offers, offers, herrands]
  exact List.filter_sublist.filterMap _

theorem count_offers_of_want? [DecidableEq α] {b b' : Mailbox α} {c : Nat} {m : α}
    (hwant : b.want? c = some (.send m))
    (herrands : b'.errands = b.errands.filter fun x => x.1 != c) (m' : α) :
    [m].count m' + b'.offers.count m' ≤ b.offers.count m' := by
  have hperm := (List.filter_append_perm (fun x : Nat × Want α => x.1 != c) b.errands).filterMap
    fun x => x.2.message?
  rw [List.filterMap_append] at hperm
  have hmem : [m].Sublist
      ((b.errands.filter fun x => !(x.1 != c)).filterMap fun x => x.2.message?) := by
    rw [List.singleton_sublist]
    refine List.mem_filterMap.2 ⟨(c, .send m), List.mem_filter.2 ⟨?_, by simp⟩, rfl⟩
    exact mem_errands_of_want? b c hwant
  have hsplit := hperm.count_eq m'
  have hle := hmem.count_le m'
  rw [List.count_append] at hsplit
  rw [offers, offers, herrands]
  omega

theorem next_offers [DecidableEq α] (b : Mailbox α) (e : Event α) (m : α) :
    ((b.answer? e).bind Answer.accepted?).toList.count m +
        ((b.answer? e).bind Answer.refused?).toList.count m + (b.next e).offers.count m ≤
      b.offers.count m + e.offered?.toList.count m := by
  cases e with
  | trySend m' =>
    cases ho : b.obstacle with
    | some o =>
      simp only [answer?, next, trySend_of_obstacle ho, Event.offered?, Answer.accepted?,
        Answer.refused?, Option.bind_some, Option.toList_none, Option.toList_some, List.count_nil]
      omega
    | none =>
      have hoffers : (b.push m').offers = b.offers := rfl
      simp only [answer?, next, trySend_of_no_obstacle ho, Event.offered?, Answer.accepted?,
        Answer.refused?, Option.bind_some, Option.toList_none, Option.toList_some, List.count_nil,
        hoffers]
      omega
  | join c w =>
    rw [next, offers, offers, join_errands, List.filterMap_append, List.count_append]
    cases w <;> simp [answer?, Event.offered?, Want.message?]
  | leave c =>
    have hle := (offers_sublist (b.leave_errands c)).count_le m
    simpa [answer?, next, Event.offered?] using hle
  | close =>
    have hoffers : b.close.offers = b.offers := rfl
    simp [answer?, next, hoffers, Event.offered?]
  | step c =>
    have heffect := b.step_effect c
    simp only [answer?, next, Event.offered?]
    generalize (b.step c).1 = b', (b.step c).2 = o at heffect
    cases heffect with
    | still _ _ herrands => simp [offers, herrands]
    | sent hwant _ _ _ _ herrands =>
      have hle := count_offers_of_want? hwant herrands m
      simpa [hwant, Answer.accepted?, Answer.refused?] using hle
    | refused hwant _ _ _ herrands =>
      have hle := count_offers_of_want? hwant herrands m
      simpa [hwant, Answer.accepted?, Answer.refused?] using hle
    | received hwant _ _ herrands =>
      have hle := (offers_sublist herrands).count_le m
      simpa [hwant, Answer.accepted?, Answer.refused?] using hle
    | drained hwant _ _ _ _ herrands =>
      have hle := (offers_sublist herrands).count_le m
      simpa [hwant, Answer.accepted?, Answer.refused?] using hle

theorem after_capacity (capacity : Nat) (events : List (Event α)) :
    ((empty capacity).after events).capacity = capacity := by
  induction events using List.reverseRecOn with
  | nil => rfl
  | append_singleton events e ih => rw [after_concat, next_capacity, ih]

theorem after_closed {b : Mailbox α} {events : List (Event α)} (h : .close ∈ events) :
    (b.after events).closed = true := by
  induction events using List.reverseRecOn with
  | nil => cases h
  | append_singleton events e ih =>
    rw [after_concat]
    rcases List.mem_append.1 h with h | h
    · exact next_closed (ih h) e
    · obtain rfl := List.mem_singleton.1 h
      rfl

theorem answers_of_closed {b : Mailbox α} (h : b.closed = true) (events : List (Event α)) :
    (b.answers events).filterMap Answer.accepted? = [] := by
  induction events generalizing b with
  | nil => rfl
  | cons e events ih =>
    have hnone := accepted_of_closed h e
    have htail := ih (next_closed h e)
    rw [answers] at htail
    rw [answers, history, List.filterMap_append, htail, List.append_nil]
    cases ha : b.answer? e with
    | none => rfl
    | some a => simpa [ha] using hnone

theorem bounded_after (capacity : Nat) (events : List (Event α)) :
    ((empty capacity).after events).items.length ≤ capacity := by
  induction events using List.reverseRecOn with
  | nil => exact Nat.zero_le capacity
  | append_singleton events e ih =>
    rw [after_concat]
    have hlength := congrArg List.length (((empty capacity).after events).next_items e)
    rw [List.length_append, List.length_append] at hlength
    cases ha : (((empty capacity).after events).answer? e).bind Answer.accepted? with
    | none =>
      rw [ha, Option.toList_none, List.length_nil] at hlength
      omega
    | some m =>
      have hroom := (room_of_accepted ha).2
      rw [after_capacity] at hroom
      rw [ha, Option.toList_some, List.length_singleton] at hlength
      omega

theorem fifo_after (capacity : Nat) (events : List (Event α)) :
    ((empty capacity).answers events).filterMap Answer.received? ++
        ((empty capacity).after events).items =
      ((empty capacity).answers events).filterMap Answer.accepted? := by
  induction events using List.reverseRecOn with
  | nil => rfl
  | append_singleton events e ih =>
    have hnext := ((empty capacity).after events).next_items e
    rw [after_concat, answers_concat, List.filterMap_append, List.filterMap_append, ← ih,
      filterMap_toList, filterMap_toList, List.append_assoc, hnext, List.append_assoc]

theorem offers_after [DecidableEq α] (capacity : Nat) (events : List (Event α)) (m : α) :
    (((empty capacity).answers events).filterMap Answer.accepted?).count m +
        (((empty capacity).answers events).filterMap Answer.refused?).count m +
        ((empty capacity).after events).offers.count m ≤
      (events.filterMap Event.offered?).count m := by
  induction events using List.reverseRecOn with
  | nil => exact Nat.le_refl 0
  | append_singleton events e ih =>
    have hnext := ((empty capacity).after events).next_offers e m
    rw [after_concat, answers_concat]
    simp only [List.filterMap_append, List.count_append, filterMap_toList]
    have hlast : [e].filterMap Event.offered? = e.offered?.toList := by
      cases he : e.offered? <;> simp [he]
    rw [hlast]
    omega

structure Delivers [DecidableEq α] (capacity : Nat) (events : List (Event α))
    (log : List (Answer α)) (b : Mailbox α) : Prop where
  bounded : b.items.length ≤ capacity
  /-- Nothing is lost, doubled or reordered. -/
  fifo : log.filterMap Answer.received? ++ b.items = log.filterMap Answer.accepted?
  /-- An offer that was refused is none of those that were accepted. -/
  offers : ∀ m, (log.filterMap Answer.accepted?).count m +
    (log.filterMap Answer.refused?).count m ≤ (events.filterMap Event.offered?).count m
  /-- Refusals, retries and callers who give up leave the queue as it was. -/
  unmoved : ∀ e, (b.answer? e).bind Answer.accepted? = none →
    (b.answer? e).bind Answer.received? = none → (b.next e).items = b.items
  closing : .close ∈ events → b.closed = true ∧
    ∀ later, (b.answers later).filterMap Answer.accepted? = []
  draining : ∀ e c w, b.answer? e = some (.done c w .drained) → b.closed = true ∧
    log.filterMap Answer.received? = log.filterMap Answer.accepted?

/-- Whoever comes, goes on, gives up or closes a new mailbox, in whatever order: it delivers. -/
theorem empty_delivers [DecidableEq α] (capacity : Nat) (events : List (Event α)) :
    Delivers capacity events ((empty capacity).answers events) ((empty capacity).after events) := by
  constructor
  · exact bounded_after capacity events
  · exact fifo_after capacity events
  · intro m
    have h := offers_after capacity events m
    omega
  · intro e hin hout
    have h := ((empty capacity).after events).next_items e
    rwa [hin, hout, Option.toList_none, List.nil_append, List.append_nil] at h
  · intro hclose
    have hshut : ((empty capacity).after events).closed = true := after_closed hclose
    exact ⟨hshut, answers_of_closed hshut⟩
  · intro e c w h
    obtain ⟨hshut, hempty⟩ := drained_of_answer h
    have hfifo := fifo_after capacity events
    rw [hempty, List.append_nil] at hfifo
    exact ⟨hshut, hfifo⟩

/-- A sender that waits for room comes after the message that it waits for, and one that tries in
between is refused. -/
example : (empty 1).answers [.trySend 7, .join 1 (.send 8), .step 1, .step 1, .trySend 9,
      .join 2 .receive, .step 2, .step 2, .step 1, .step 1, .step 1] =
    [.tried 7 (.ok ()), .tried 9 (.error .full), .done 2 .receive (.received 7),
      .done 1 (.send 8) .sent] := rfl

end Reconciliation.Mailbox
