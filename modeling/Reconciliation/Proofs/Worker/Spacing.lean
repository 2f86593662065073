import Reconciliation.Proofs.Worker.Scheduling

/-! # Passes keep their distance

One caller at a time waits for tickets. It goes to sleep only while a pass is queued and sleeps for
one interval, and there is nobody to be found asleep once its ticket has been issued.
-/
namespace Reconciliation.Debouncer

def Event.clock? : Event → Option Nat
  | .step now _ => some now
  | _ => none

def Sleeps (d : Debouncer) (c due : Nat) : Prop :=
  (c, .sleeping due) ∈ d.callers

inductive Move (d d' : Debouncer) (now c : Nat) : Option Next → Prop where
  | rest (hcallers : d'.callers = d.callers) : Move d d' now c none
  | wait {w : Wait} (hcallers : d'.callers = (d.setWait c w).callers)
      (hw : ∀ due, w = .sleeping due →
        d.phase = .queued ∧ d'.phase = .queued ∧ due = now + d.interval) : Move d d' now c none
  | go {n : Next} (hcallers : d'.callers = (d.leave c).callers)
      (hticket : n ≠ .closed → ∃ due, d.wait? c = some (.sleeping due) ∧ due ≤ now) :
      Move d d' now c (some n)

theorem step_move (d : Debouncer) (now c : Nat) :
    Move d (d.step now c).1 now c (d.step now c).2 := by
  unfold step
  cases hw : d.wait? c with
  | none => exact .rest rfl
  | some w =>
    cases w with
    | looking =>
      cases hp : d.phase with
      | closed => exact .go rfl fun hne => absurd rfl hne
      | queued => exact .wait rfl fun due hdue => ⟨hp, hp, (Wait.sleeping.inj hdue).symm⟩
      | idle =>
        dsimp only
        split
        · exact .rest rfl
        · exact .wait rfl nofun
      | running dirty =>
        dsimp only
        split
        · exact .rest rfl
        · exact .wait rfl nofun
    | sleeping due =>
      dsimp only
      split
      · exact .go rfl fun hne => absurd rfl hne
      · split
        · split
          · exact .go rfl fun _ => ⟨due, hw, ‹_›⟩
          · exact .wait rfl nofun
        · exact .rest rfl
    | listening =>
      dsimp only
      split
      · exact .go rfl fun hne => absurd rfl hne
      · split
        · exact .rest rfl
        · exact .wait rfl nofun

/-- Nobody asks for a ticket while somebody else waits for one. -/
def Yields (d : Debouncer) : Event → Prop
  | .join _ => d.callers = []
  | e => d.Enabled e

structure Gathers (d : Debouncer) (e : Event) (events : List Event) : Prop where
  before : d.phase ≠ .queued
  since : ∀ part, part <+: events → ((d.next e).after part).phase = .queued

theorem queued_next {d : Debouncer} (h : d.phase = .queued) (e : Event) :
    (d.next e).phase = .queued ∧ (∀ a, d.answer? e = some a → a = .requested .alreadyQueued) ∨
      (d.next e).phase = .closed ∨ d.tickets [e] ≠ [] := by
  have hturn := d.next_turn e
  rw [tickets_singleton]
  generalize d.next e = d', d.answer? e = a at hturn
  cases hturn with
  | request hphase _ _ =>
    left
    rw [hphase, h]
    refine ⟨rfl, ?_⟩
    intro a ha
    rw [← Option.some.inj ha, request, h]
  | close hphase _ _ => exact Or.inr (Or.inl hphase)
  | giveBack hphase _ _ =>
    left
    rw [hphase, h]
    exact ⟨rfl, by simp⟩
  | still hphase _ _ => exact Or.inl ⟨hphase.trans h, by simp⟩
  | issue _ _ _ _ => exact Or.inr (Or.inr (List.cons_ne_nil _ _))
  | sendAway hclosed _ _ _ => cases h.symm.trans hclosed

theorem after_middle (d : Debouncer) (before : List Event) (e : Event) (mid : List Event) :
    d.after (before ++ e :: mid) = ((d.after before).next e).after mid := by
  rw [after_append]
  rfl

theorem Gathers.answers {d : Debouncer} {q : Event} {mid : List Event} (h : d.Gathers q mid) :
    ∀ a ∈ (d.next q).answers mid, a = .requested .alreadyQueued := by
  obtain ⟨-, hsince⟩ := h
  induction mid using List.reverseRecOn with
  | nil => exact nofun
  | append_singleton mid e ih =>
    have hbefore := hsince mid (List.prefix_append mid [e])
    have hafter := hsince (mid ++ [e]) (List.prefix_refl _)
    rw [after_concat] at hafter
    have hmid := ih fun part hpart => hsince part (hpart.trans (List.prefix_append mid [e]))
    intro a ha
    rw [Debouncer.answers, history_concat] at ha
    rcases List.mem_append.1 ha with ha | ha
    · exact hmid a ha
    · rcases queued_next hbefore e with ⟨-, hanswer⟩ | hclosed | hticket
      · exact hanswer a (Option.mem_toList.1 ha)
      · cases hafter.symm.trans hclosed
      · cases hafter.symm.trans (issue_of_tickets hticket).2

def QueuedSince (d : Debouncer) (events : List (Nat × Event)) (u : Nat) : Prop :=
  ∃ before q mid, events = before ++ (u, q) :: mid ∧
    (d.after (before.map Prod.snd)).Gathers q (mid.map Prod.snd)

section since

variable {d : Debouncer} {events : List (Nat × Event)} {x : Nat × Event} {u : Nat}

theorem QueuedSince.queued (h : d.QueuedSince events u) :
    (d.after (events.map Prod.snd)).phase = .queued := by
  obtain ⟨before, q, mid, rfl, -, hsince⟩ := h
  rw [List.map_append, List.map_cons, after_middle]
  exact hsince _ (List.prefix_refl _)

theorem QueuedSince.concat (h : d.QueuedSince events u)
    (hx : (d.after ((events ++ [x]).map Prod.snd)).phase = .queued) :
    d.QueuedSince (events ++ [x]) u := by
  obtain ⟨before, q, mid, rfl, hbefore, hsince⟩ := h
  refine ⟨before, q, mid ++ [x], by simp, hbefore, ?_⟩
  intro part hpart
  rw [List.map_append] at hpart
  rcases List.prefix_concat_iff.1 hpart with rfl | hpart
  · rw [← after_middle]
    simpa using hx
  · exact hsince part hpart

theorem QueuedSince.le {past mid : List (Nat × Event)} {t : Nat} {e : Event}
    (h : d.QueuedSince (past ++ (t, e) :: mid) u)
    (horder : ((t, e) :: mid).Pairwise fun x y => x.1 ≤ y.1)
    (hpast : (d.after (past.map Prod.snd)).phase ≠ .queued) : t ≤ u := by
  obtain ⟨before, q, rest, heq, -, hsince⟩ := h
  rcases List.append_eq_append_iff.1 heq with ⟨gap, -, hgap⟩ | ⟨gap, rfl, hgap⟩
  · have hmem : (u, q) ∈ (t, e) :: mid := by
      rw [hgap]
      exact List.mem_append_right _ List.mem_cons_self
    rcases List.mem_cons.1 hmem with heq | hmem
    · cases heq
      exact Nat.le_refl _
    · exact List.rel_of_pairwise_cons horder hmem
  · cases gap with
    | nil =>
      cases hgap
      exact Nat.le_refl _
    | cons x gap =>
      obtain ⟨rfl, rfl⟩ := List.cons.inj hgap
      refine absurd ?_ hpast
      rw [List.map_append, List.map_cons, after_middle]
      exact hsince _ ((List.prefix_append gap ((t, e) :: mid)).map Prod.snd)

end since

section run

variable {interval : Nat} {events : List (Nat × Event)}

end run

/-- What can be said of the distance between passes: `past`, `mid` and `later` are parts of the
events in their order. -/
structure Spaced (interval : Nat) (events : List (Nat × Event)) : Prop where
  /-- A ticket is issued one interval after its pass was queued, or later. -/
  rested : ∀ past t e later, events = past ++ (t, e) :: later →
    ((start interval).after (past.map Prod.snd)).tickets [e] ≠ [] →
    ∃ u, (start interval).QueuedSince past u ∧ u + interval ≤ t
  /-- So it comes one interval after a request that found nothing to do, or later. -/
  requested : ∀ past u mid t e later, events = past ++ (u, .request) :: (mid ++ (t, e) :: later) →
    ((start interval).after (past.map Prod.snd)).phase = .idle →
    ((start interval).after ((past ++ (u, .request) :: mid).map Prod.snd)).tickets [e] ≠ [] →
    u + interval ≤ t
  /-- It comes one interval after the ticket before it came back, or later. -/
  returned : ∀ past u serial mid t e later,
    events = past ++ (u, .giveBack serial) :: (mid ++ (t, e) :: later) →
    ((start interval).after ((past ++ (u, .giveBack serial) :: mid).map Prod.snd)).tickets [e] ≠ [] →
    u + interval ≤ t
  /-- And the ticket before it has come back. -/
  back : ∀ past t e later, events = past ++ (t, e) :: later →
    ((start interval).after (past.map Prod.snd)).tickets [e] ≠ [] →
    ((start interval).after (past.map Prod.snd)).held = []
  /-- All that was requested since the pass was queued has this ticket in common: there is no ticket
  before it, and none after it without another request. -/
  shared : ∀ past q mid e later, events.map Prod.snd = past ++ q :: (mid ++ e :: later) →
    ((start interval).after past).Gathers q mid →
    ((start interval).after (past ++ q :: mid)).tickets [e] ≠ [] →
    (∀ a ∈ ((start interval).after (past ++ [q])).answers mid, a = .requested .alreadyQueued) ∧
      ∀ rest, rest <+: later → .request ∉ rest →
        ((start interval).after (past ++ q :: (mid ++ [e]))).tickets rest = []

instance (d : Debouncer) : (e : Event) → Decidable (d.Yields e)
  | .join _ => decidable_of_iff (d.callers.isEmpty = true) List.isEmpty_iff
  | .request => inferInstanceAs (Decidable (d.Enabled .request))
  | .close => inferInstanceAs (Decidable (d.Enabled .close))
  | .giveBack serial => inferInstanceAs (Decidable (d.Enabled (.giveBack serial)))
  | .step now c => inferInstanceAs (Decidable (d.Enabled (.step now c)))
  | .leave c => inferInstanceAs (Decidable (d.Enabled (.leave c)))

end Reconciliation.Debouncer
