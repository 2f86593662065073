import Mathlib.Data.List.Induction
import Mathlib.Data.List.Range
import Reconciliation.Proofs.History
import Reconciliation.Proofs.Worker.Debouncer

/-! # Every request gets a pass of its own or shares one

Any number of callers request passes and wait for tickets. One ticket is out at a time, and each is
numbered.
-/
namespace Reconciliation

def Phase.Wanted (p : Phase) : Prop :=
  p = .queued ∨ p = .running true

theorem Phase.requested_wanted {p : Phase} (h : p ≠ .closed) : p.requested.Wanted := by
  cases p with
  | idle => exact Or.inl rfl
  | queued => exact Or.inl rfl
  | running dirty => exact Or.inr rfl
  | closed => exact absurd rfl h

theorem Phase.returned_wanted_iff (p : Phase) : p.returned.Wanted ↔ p.Wanted := by
  cases p with
  | running dirty => cases dirty <;> simp [Wanted, returned]
  | idle | queued | closed => rfl

namespace Debouncer

/-- What an event makes known: what became of a request, or what a caller came away with. -/
inductive Answer where
  | requested (r : Request)
  | came (n : Next)

def Answer.serial? : Answer → Option Nat
  | came (.ticket serial) => some serial
  | _ => none

def answer? (d : Debouncer) : Event → Option Answer
  | .request => some (.requested d.request.2)
  | .step now c => (d.step now c).2.map .came
  | .close | .giveBack _ | .join _ | .leave _ => none

def after (d : Debouncer) (events : List Event) : Debouncer :=
  events.foldl next d

def answers (d : Debouncer) (events : List Event) : List Answer :=
  history next (fun d e => (d.answer? e).toList) d events

def tickets (d : Debouncer) (events : List Event) : List Nat :=
  (d.answers events).filterMap Answer.serial?

def Legal (d : Debouncer) (events : List Event) : Prop :=
  Follows next Enabled d events

theorem after_append (d : Debouncer) (events later : List Event) :
    d.after (events ++ later) = (d.after events).after later :=
  List.foldl_append

theorem after_concat (d : Debouncer) (events : List Event) (e : Event) :
    d.after (events ++ [e]) = (d.after events).next e := by
  simp [after]

theorem tickets_append (d : Debouncer) (events later : List Event) :
    d.tickets (events ++ later) = d.tickets events ++ (d.after events).tickets later := by
  rw [tickets, answers, history_append, List.filterMap_append]
  rfl

/-- What an event does to the phase and the tickets, and what it answers. -/
inductive Turn (d d' : Debouncer) : Event → Option Answer → Prop where
  | request (hphase : d'.phase = d.phase.requested) (hissued : d'.issued = d.issued)
      (hheld : d'.held = d.held) : Turn d d' .request (some (.requested d.request.2))
  | close (hphase : d'.phase = .closed) (hissued : d'.issued = d.issued)
      (hheld : d'.held = d.held) : Turn d d' .close none
  | giveBack {serial : Nat} (hphase : d'.phase = d.phase.returned) (hissued : d'.issued = d.issued)
      (hheld : d'.held = d.held.erase serial) : Turn d d' (.giveBack serial) none
  | still {e : Event} (hphase : d'.phase = d.phase) (hissued : d'.issued = d.issued)
      (hheld : d'.held = d.held) : Turn d d' e none
  | issue {now c : Nat} (hqueued : d.phase = .queued) (hphase : d'.phase = .running false)
      (hissued : d'.issued = d.issued + 1) (hheld : d'.held = d.held ++ [d.issued + 1]) :
      Turn d d' (.step now c) (some (.came (.ticket (d.issued + 1))))
  | sendAway {now c : Nat} (hclosed : d.phase = .closed) (hphase : d'.phase = .closed)
      (hissued : d'.issued = d.issued) (hheld : d'.held = d.held) :
      Turn d d' (.step now c) (some (.came .closed))

theorem request_tickets (d : Debouncer) :
    d.request.1.issued = d.issued ∧ d.request.1.held = d.held := by
  unfold request
  cases d.phase <;> exact ⟨rfl, rfl⟩

theorem giveBack_tickets (d : Debouncer) (serial : Nat) :
    (d.giveBack serial).issued = d.issued ∧ (d.giveBack serial).held = d.held.erase serial := by
  unfold giveBack
  cases d.phase with
  | running dirty => cases dirty <;> exact ⟨rfl, rfl⟩
  | idle | queued | closed => exact ⟨rfl, rfl⟩

theorem next_turn (d : Debouncer) (e : Event) : Turn d (d.next e) e (d.answer? e) := by
  cases e with
  | request =>
    obtain ⟨hissued, hheld⟩ := d.request_tickets
    exact .request d.request_phase hissued hheld
  | close => exact .close rfl rfl rfl
  | giveBack serial =>
    obtain ⟨hissued, hheld⟩ := d.giveBack_tickets serial
    exact .giveBack (d.giveBack_phase serial) hissued hheld
  | join c => exact .still rfl rfl rfl
  | leave c => exact .still rfl rfl rfl
  | step now c =>
    have heffect := d.step_effect now c
    simp only [answer?, next]
    generalize (d.step now c).1 = d', (d.step now c).2 = n at heffect
    cases heffect with
    | still hphase hissued hheld => exact .still hphase hissued hheld
    | issued hqueued hphase hissued hheld => exact .issue hqueued hphase hissued hheld
    | ended hclosed hphase hissued hheld =>
      exact .sendAway hclosed (hphase.trans hclosed) hissued hheld

theorem tickets_singleton (d : Debouncer) (e : Event) :
    d.tickets [e] = ((d.answer? e).bind Answer.serial?).toList := by
  rw [tickets, answers, history, history, List.append_nil, filterMap_toList]

/-- A ticket is issued for a queued pass, which is running from then on. -/
theorem issue_of_tickets {d : Debouncer} {e : Event} (h : d.tickets [e] ≠ []) :
    d.phase = .queued ∧ (d.next e).phase = .running false := by
  have hturn := d.next_turn e
  rw [tickets_singleton] at h
  generalize d.next e = d', d.answer? e = a at hturn h
  cases hturn with
  | issue hqueued hphase _ _ => exact ⟨hqueued, hphase⟩
  | request _ _ _ => exact absurd rfl h
  | close _ _ _ => exact absurd rfl h
  | giveBack _ _ _ => exact absurd rfl h
  | still _ _ _ => exact absurd rfl h
  | sendAway _ _ _ _ => exact absurd rfl h

/-- A pass that is still to come remains so until its ticket is issued, or all is closed. -/
theorem wanted_next {d : Debouncer} (h : d.phase.Wanted) (e : Event) :
    (d.next e).phase.Wanted ∨ d.tickets [e] ≠ [] ∨ (d.next e).phase = .closed := by
  have hturn := d.next_turn e
  rw [tickets_singleton]
  generalize d.next e = d', d.answer? e = a at hturn
  cases hturn with
  | request hphase _ _ =>
    left
    rw [hphase]
    apply Phase.requested_wanted
    rintro hc
    rcases h with h | h <;> cases h.symm.trans hc
  | close hphase _ _ => exact Or.inr (Or.inr hphase)
  | giveBack hphase _ _ =>
    left
    rw [hphase]
    exact (Phase.returned_wanted_iff d.phase).2 h
  | still hphase _ _ =>
    left
    rwa [hphase]
  | issue _ _ _ _ =>
    right
    left
    exact List.cons_ne_nil _ _
  | sendAway _ hphase _ _ => exact Or.inr (Or.inr hphase)

/-- Without a request no pass comes to be wanted, and no ticket is issued. -/
theorem unwanted_next {d : Debouncer} (h : ¬ d.phase.Wanted) {e : Event} (he : e ≠ .request) :
    ¬ (d.next e).phase.Wanted := by
  have hturn := d.next_turn e
  generalize d.next e = d', d.answer? e = a at hturn
  cases hturn with
  | request _ _ _ => exact absurd rfl he
  | close hphase _ _ =>
    rw [hphase]
    rintro (hc | hc) <;> cases hc
  | giveBack hphase _ _ => rwa [hphase, Phase.returned_wanted_iff]
  | still hphase _ _ => rwa [hphase]
  | issue hqueued _ _ _ => exact absurd (Or.inl hqueued) h
  | sendAway _ hphase _ _ =>
    rw [hphase]
    rintro (hc | hc) <;> cases hc

theorem closed_next {d : Debouncer} (h : d.phase = .closed) (e : Event) :
    (d.next e).phase = .closed ∧
      ∀ a, d.answer? e = some a → a = .requested .closed ∨ a = .came .closed := by
  have hturn := d.next_turn e
  generalize d.next e = d', d.answer? e = a at hturn
  cases hturn with
  | request hphase _ _ =>
    refine ⟨?_, ?_⟩
    · rw [hphase, h]
      rfl
    · intro a ha
      left
      rw [← Option.some.inj ha, request, h]
  | close hphase _ _ => exact ⟨hphase, by simp⟩
  | giveBack hphase _ _ =>
    refine ⟨?_, by simp⟩
    rw [hphase, h]
    rfl
  | still hphase _ _ => exact ⟨hphase.trans h, by simp⟩
  | issue hqueued _ _ _ => cases h.symm.trans hqueued
  | sendAway _ hphase _ _ =>
    refine ⟨hphase, ?_⟩
    intro a ha
    exact Or.inr (Option.some.inj ha).symm

theorem wanted_after {d : Debouncer} (h : d.phase.Wanted) (events : List Event) :
    (d.after events).phase.Wanted ∨ d.tickets events ≠ [] ∨ (d.after events).phase = .closed := by
  induction events using List.reverseRecOn with
  | nil => exact Or.inl h
  | append_singleton events e ih =>
    rw [after_concat, tickets_append]
    rcases ih with hw | ht | hc
    · rcases wanted_next hw e with hw | ht | hc
      · exact Or.inl hw
      · exact Or.inr (Or.inl (List.append_ne_nil_of_right_ne_nil _ ht))
      · exact Or.inr (Or.inr hc)
    · exact Or.inr (Or.inl (List.append_ne_nil_of_left_ne_nil ht _))
    · exact Or.inr (Or.inr (closed_next hc e).1)

theorem unwanted_after {d : Debouncer} (h : ¬ d.phase.Wanted) {events : List Event}
    (hev : .request ∉ events) : ¬ (d.after events).phase.Wanted := by
  induction events using List.reverseRecOn with
  | nil => exact h
  | append_singleton events e ih =>
    rw [after_concat]
    apply unwanted_next (ih fun hm => hev (List.mem_append_left [e] hm))
    rintro rfl
    exact hev (List.mem_append_right events List.mem_cons_self)

theorem closed_after {d : Debouncer} (h : d.phase = .closed) (events : List Event) :
    (d.after events).phase = .closed ∧
      ∀ a ∈ d.answers events, a = .requested .closed ∨ a = .came .closed := by
  induction events generalizing d with
  | nil => exact ⟨h, fun a ha => absurd ha List.not_mem_nil⟩
  | cons e events ih =>
    obtain ⟨hnext, hanswer⟩ := closed_next h e
    obtain ⟨hafter, hanswers⟩ := ih hnext
    refine ⟨hafter, ?_⟩
    intro a ha
    rcases List.mem_append.1 ha with ha | ha
    · exact hanswer a (Option.mem_toList.1 ha)
    · exact hanswers a ha

theorem tickets_after (interval : Nat) (events : List Event) :
    (start interval).tickets events = List.range' 1 ((start interval).after events).issued := by
  induction events using List.reverseRecOn with
  | nil => rfl
  | append_singleton events e ih =>
    have hturn := ((start interval).after events).next_turn e
    rw [after_concat, tickets_append, tickets_singleton, ih]
    generalize ((start interval).after events) = d at hturn
    generalize d.next e = d', d.answer? e = a at hturn
    cases hturn with
    | issue _ _ hissued _ =>
      rw [hissued, List.range'_1_concat, Nat.add_comm d.issued 1]
      rfl
    | request _ hissued _ => simp [hissued, Answer.serial?]
    | close _ hissued _ => simp [hissued]
    | giveBack _ hissued _ => simp [hissued]
    | still _ hissued _ => simp [hissued]
    | sendAway _ _ hissued _ => simp [hissued, Answer.serial?]

structure OneOut (d : Debouncer) : Prop where
  held : d.held.length ≤ 1
  running : d.held ≠ [] → (∃ dirty, d.phase = .running dirty) ∨ d.phase = .closed

theorem OneOut.held_eq_nil {d : Debouncer} (h : d.OneOut) (hqueued : d.phase = .queued) :
    d.held = [] := by
  by_contra hout
  rcases h.running hout with ⟨dirty, hr⟩ | hc
  · cases hqueued.symm.trans hr
  · cases hqueued.symm.trans hc

theorem OneOut.next {d : Debouncer} (h : d.OneOut) {e : Event} (he : d.Enabled e) :
    (d.next e).OneOut := by
  have hturn := d.next_turn e
  generalize d.next e = d', d.answer? e = a at hturn
  cases hturn with
  | request hphase _ hheld =>
    constructor
    · rw [hheld]
      exact h.held
    · rw [hheld, hphase]
      intro hout
      rcases h.running hout with ⟨dirty, hr⟩ | hc
      · left
        rw [hr]
        exact ⟨true, rfl⟩
      · right
        rw [hc]
        rfl
  | close hphase _ hheld =>
    constructor
    · rw [hheld]
      exact h.held
    · exact fun _ => Or.inr hphase
  | @giveBack serial _ _ hheld =>
    have hnone : d'.held = [] := by
      have hlength : (d.held.erase serial).length = d.held.length - 1 :=
        List.length_erase_of_mem he
      have hle := h.held
      apply List.eq_nil_of_length_eq_zero
      rw [hheld]
      omega
    constructor
    · simp [hnone]
    · exact fun hout => absurd hnone hout
  | still hphase _ hheld =>
    constructor
    · rw [hheld]
      exact h.held
    · rw [hheld, hphase]
      exact h.running
  | issue hqueued hphase _ hheld =>
    constructor
    · simp [hheld, h.held_eq_nil hqueued]
    · exact fun _ => Or.inl ⟨false, hphase⟩
  | sendAway _ hphase _ hheld =>
    constructor
    · rw [hheld]
      exact h.held
    · exact fun _ => Or.inr hphase

theorem oneOut_after {interval : Nat} {events : List Event}
    (h : (start interval).Legal events) : ((start interval).after events).OneOut := by
  have hstart : (start interval).OneOut := ⟨Nat.zero_le 1, fun hout => absurd rfl hout⟩
  exact h.keeps hstart fun _ _ hd he => hd.next he

/-- What can be said of a debouncer after events: `past`, `mid` and `later` are parts of them in
their order. -/
structure Safe (interval : Nat) (events : List Event) : Prop where
  one_out : ((start interval).after events).held.length ≤ 1
  serials : (start interval).tickets events =
    List.range' 1 ((start interval).after events).issued
  /-- A request that was not turned down is wanted until a ticket has been issued for it. -/
  answered : ∀ past later, events = past ++ .request :: later →
    ((start interval).after past).request.2 ≠ .closed →
    ((start interval).after events).phase.Wanted ∨
      ((start interval).after (past ++ [.request])).tickets later ≠ [] ∨
      ((start interval).after events).phase = .closed
  /-- There is a request between any two tickets. -/
  requested : ∀ past e mid e' later, events = past ++ e :: (mid ++ e' :: later) →
    ((start interval).after past).tickets [e] ≠ [] →
    ((start interval).after (past ++ e :: mid)).tickets [e'] ≠ [] → .request ∈ mid
  /-- After closing there is no ticket, every request is turned down, and nothing opens again. -/
  closing : ∀ past later, events = past ++ .close :: later →
    ((start interval).after events).phase = .closed ∧
      ∀ a ∈ ((start interval).after (past ++ [.close])).answers later,
        a = .requested .closed ∨ a = .came .closed

theorem start_safe {interval : Nat} {events : List Event} (h : (start interval).Legal events) :
    Safe interval events := by
  constructor
  · exact (oneOut_after h).held
  · exact tickets_after interval events
  · rintro past later rfl hopen
    have hwanted : ((start interval).after (past ++ [.request])).phase.Wanted := by
      rw [after_concat, next, request_phase]
      apply Phase.requested_wanted
      intro hc
      exact hopen (by rw [request, hc])
    have hsplit : past ++ .request :: later = (past ++ [.request]) ++ later := by simp
    rw [hsplit, after_append]
    exact wanted_after hwanted later
  · rintro past e mid e' later - hfirst hsecond
    by_contra hnone
    have hrunning := (issue_of_tickets hfirst).2
    have hunwanted : ¬ (((start interval).after past).next e).phase.Wanted := by
      rw [hrunning]
      rintro (hw | hw) <;> cases hw
    have hqueued := (issue_of_tickets hsecond).1
    rw [after_append] at hqueued
    exact unwanted_after hunwanted hnone (Or.inl hqueued)
  · rintro past later rfl
    have hclosed : ((start interval).after (past ++ [.close])).phase = .closed := by
      rw [after_concat]
      rfl
    have hsplit : past ++ .close :: later = (past ++ [.close]) ++ later := by simp
    rw [hsplit, after_append]
    exact closed_after hclosed later

instance (d : Debouncer) (e : Event) : Decidable (d.Enabled e) := by
  cases e <;> unfold Enabled <;> infer_instance

instance (d : Debouncer) (events : List Event) : Decidable (d.Legal events) :=
  inferInstanceAs (Decidable (Follows next Enabled d events))

/-- Two callers get a ticket each, the second one because of a request that came in between, and the
second ticket comes back after closing. -/
def relay : List Event :=
  [.join 1, .request, .join 2, .step 0 1, .step 10 2, .step 50 1, .step 60 2, .request, .giveBack 1,
    .step 60 2, .step 110 2, .request, .close, .giveBack 2, .request, .join 3, .step 120 3]

theorem relay_safe : (start 50).Legal relay ∧ Safe 50 relay ∧ (start 50).tickets relay = [1, 2] ∧
    ((start 50).after relay).phase = .closed := by
  have hlegal : (start 50).Legal relay := by decide
  exact ⟨hlegal, start_safe hlegal, rfl, rfl⟩

end Debouncer

end Reconciliation
