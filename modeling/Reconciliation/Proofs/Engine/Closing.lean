import Reconciliation.Proofs.Engine.Handover

/-! # The steps of a shutdown

What a step of the shutdown can do, and what leaves it alone. The mailbox has room for the shutdown
command, so that it does not have to wait there: when the time is over, it has been sent.
-/
namespace Reconciliation.Engine

def Closing.IsEarly : Closing → Prop
  | .open | .sending _ | .awaiting _ | .handedOver => True
  | .joining _ | .patient | .forcing | .over => False

inductive ClosingTurn (e : Engine) (now : Nat) : Engine × Option Farewell → Prop where
  | rest : ClosingTurn e now (e, none)
  | post {b : Mailbox Command} {deadline : Nat} (hclosing : e.closing = .sending deadline)
      (hstep : e.actor.mailbox.step closerId = (b, none)) :
      ClosingTurn e now ({ e with actor := { e.actor with mailbox := b } }, none)
  | posted {b : Mailbox Command} {deadline : Nat} (hclosing : e.closing = .sending deadline)
      (hstep : e.actor.mailbox.step closerId = (b, some .sent)) :
      ClosingTurn e now
        ({ e with actor := { e.actor with mailbox := b }, closing := .awaiting deadline }, none)
  | refused {b : Mailbox Command} {deadline : Nat} {outcome : Mailbox.Outcome Command}
      (hclosing : e.closing = .sending deadline)
      (hstep : e.actor.mailbox.step closerId = (b, some outcome)) :
      ClosingTurn e now
        ({ e with actor := { e.actor with mailbox := b }, closing := .over }, some .shutDown)
  | timeOut (hclosing : (∃ deadline, e.closing = .awaiting deadline) ∨
        (∃ deadline, e.closing = .sending deadline) ∧ e.actor.mailbox.canStep closerId = false) :
      ClosingTurn e now e.timeOut
  | await {report : Report} {deadline : Nat} (hclosing : e.closing = .awaiting deadline) :
      ClosingTurn e now ({ e.awaitEnd now with closing := .joining report }, none)
  | lose : ClosingTurn e now ({ e with closing := .over }, some .shutDown)
  | goOn (hclosing : e.closing = .handedOver) :
      ClosingTurn e now ({ e.awaitEnd now with closing := .patient }, none)
  | look {j : JoinControl} (hlate : ¬ e.closing.IsEarly)
      (hstep : e.join.step e.actor.isFinished now closerId = (j, none)) :
      ClosingTurn e now ({ e with join := j }, none)
  | leave {j : JoinControl} {f : Option Farewell} : ClosingTurn e now
      ({ e with join := j, closing := .over }, f)
  | force {j : JoinControl} (hclosing : e.closing = .patient)
      (hstep : e.join.step e.actor.isFinished now closerId = (j, some false)) :
      ClosingTurn e now
        ({ e with closing := .forcing, actor := e.actor.cancel, join := j.join closerId none }, none)

theorem stepClosing_turn (e : Engine) (now : Nat) : ClosingTurn e now (e.stepClosing now) := by
  unfold stepClosing
  split
  · exact .rest
  · exact .rest
  · rename_i deadline hclosing
    split
    · split
      · exact .post hclosing ‹_›
      · exact .posted hclosing ‹_›
      · exact .refused hclosing ‹_›
    · rename_i hcan
      split
      · exact .timeOut (Or.inr ⟨⟨deadline, hclosing⟩, by simpa using hcan⟩)
      · exact .rest
  · rename_i deadline hclosing
    split
    · exact .await hclosing
    · exact .lose
    · split
      · exact .timeOut (Or.inl ⟨deadline, hclosing⟩)
      · exact .rest
  · rename_i report hclosing
    have hlate : ¬ e.closing.IsEarly := by rw [hclosing]; exact id
    split
    · exact .look hlate ‹_›
    · exact .leave
  · exact .goOn ‹_›
  · rename_i hclosing
    have hlate : ¬ e.closing.IsEarly := by rw [hclosing]; exact id
    split
    · exact .look hlate ‹_›
    · exact .leave
    · exact .force hclosing ‹_›
  · rename_i hclosing
    have hlate : ¬ e.closing.IsEarly := by rw [hclosing]; exact id
    split
    · exact .look hlate ‹_›
    · exact .leave

/-- Either there is no caller any more to give a shutdown up, or that ends it. -/
theorem abandonShutdown_turn (e : Engine) : e.abandonShutdown = e ∨
    e.abandonShutdown.closing = .over ∧ e.abandonShutdown.actor.cancelled = e.actor.cancelled ∧
      e.abandonShutdown.actor.mailbox.closed = e.actor.mailbox.closed := by
  unfold abandonShutdown
  split
  · exact Or.inr ⟨rfl, rfl, Mailbox.leave_closed _ _⟩
  · exact Or.inr ⟨rfl, rfl, rfl⟩
  · exact Or.inr ⟨rfl, rfl, rfl⟩
  all_goals exact Or.inl rfl

structure SameClosing (e e' : Engine) : Prop where
  closing : e'.closing = e.closing
  join : e'.join = e.join
  cancelled : e'.actor.cancelled = e.actor.cancelled
  closed : e'.actor.mailbox.closed = e.actor.mailbox.closed

namespace SameClosing

variable {e e' : Engine}

theorem of_actor (h : ActorMove e e') : SameClosing e e' := by
  cases h with
  | turn ht =>
    cases ht with
    | rest | launch _ | spawn _ | ready _ | ask _ | begin _ | readRevision _ | readRuntime _
    | readStore _ => exact ⟨rfl, rfl, rfl, rfl⟩
    | wait _ heffect =>
      cases heffect with
      | still _ hclosed _ => exact ⟨rfl, rfl, rfl, hclosed⟩
    | take _ heffect =>
      cases heffect with
      | received _ _ hclosed _ => exact ⟨rfl, rfl, rfl, hclosed⟩
    | @complete n serial changeCount resolution run hstage _ _ =>
      have hactor : (e.completePass serial changeCount resolution run).actor =
          { e.actor with stage := .receiving } := by
        simp [completePass, giveBack, Supervisor.handled, hstage]
      refine ⟨rfl, rfl, ?_, ?_⟩ <;> rw [hactor]
  | idle _ _ _ _ hcancelled _ hclosed _ => exact ⟨rfl, rfl, hcancelled, hclosed⟩
  | @cut m _ _ =>
    have hclosed := e.actor.mailbox.leave_closed Supervisor.receiver
    cases m <;> exact ⟨rfl, rfl, rfl, hclosed⟩
  | beginTeardown _ | unpublish _ | endTeardown _ _ => exact ⟨rfl, rfl, rfl, rfl⟩

theorem of_pump (h : PumpTurn e e') : SameClosing e e' := by
  cases h with
  | rest _ | look _ _ _ _ | take _ _ _ _ _ _ | finish _ _ _ _ _ => exact ⟨rfl, rfl, rfl, rfl⟩
  | wait _ heffect =>
    cases heffect with
    | still _ hclosed _ => exact ⟨rfl, rfl, rfl, hclosed⟩
  | leave _ heffect =>
    cases heffect with
    | sent _ _ _ _ hclosed _ => exact ⟨rfl, rfl, rfl, hclosed⟩
  | fail _ _ heffect =>
    cases heffect with
    | sent _ _ _ _ hclosed _ | refused _ _ _ hclosed _ | received _ _ hclosed _
    | drained _ _ _ _ hclosed _ => exact ⟨rfl, rfl, rfl, hclosed⟩

end SameClosing

theorem Sound.next_closing {e : Engine} (h : e.Sound) {ev : Event}
    (hev : ev.isOfShutdown = false) : SameClosing e (e.next ev) := by
  cases ev with
  | mutate m =>
    simp only [Engine.next, mutate, heard]
    split
    · split <;> exact ⟨rfl, rfl, rfl, rfl⟩
    · exact ⟨rfl, rfl, rfl, rfl⟩
  | advanceRuntime =>
    simp only [Engine.next, advanceRuntime, heard]
    split <;> exact ⟨rfl, rfl, rfl, rfl⟩
  | storeRuntime _ | request | settled _ | watch _ | unwatch _ => exact ⟨rfl, rfl, rfl, rfl⟩
  | pump now => exact .of_pump (e.stepPump_turn now)
  | act now => exact .of_actor (h.stepActor_move now)
  | respond _ =>
    simp only [Engine.next, respond]
    split <;> exact ⟨rfl, rfl, rfl, rfl⟩
  | explode =>
    simp only [Engine.next, Engine.explode]
    split
    · rename_i m hstage
      cases m <;> simp [dropCommand, giveBack, Supervisor.handled, hstage] <;>
        exact ⟨rfl, rfl, rfl, rfl⟩
    · exact ⟨rfl, rfl, rfl, rfl⟩
  | shutdown _ | close _ | abandonShutdown => cases hev

def Sends (e : Engine) : Prop :=
  ∀ deadline, e.closing = .sending deadline → e.actor.mailbox.IsReady closerId

theorem Sends.of_closing {e : Engine} (h : ∀ deadline, e.closing ≠ .sending deadline) : e.Sends :=
  fun deadline hclosing => absurd hclosing (h deadline)

theorem Sends.shutdown {e : Engine} (h : e.Sends) (hs : e.Sound) (now : Nat) :
    (e.shutdown now).1.Sends := by
  unfold Engine.shutdown
  cases hclosed : e.closed with
  | true => exact h
  | false =>
    refine fun _ _ => ⟨_, Mailbox.join_caller?_self ?_ _, nofun⟩
    cases hcaller : e.actor.mailbox.caller? closerId with
    | none => rfl
    | some x =>
      have hwant : e.actor.mailbox.want? closerId = some x.want := by
        simp [Mailbox.want?, hcaller]
      have hsending := hs.errands _ (Mailbox.mem_errands_of_want? _ _ hwant)
      rw [Expects, (hs.unshut hclosed).1] at hsending
      simp [closerId, pumpId, Supervisor.receiver] at hsending

theorem Sends.stepClosing {e : Engine} (h : e.Sends) (hs : e.Sound) (hu : e.Unhindered)
    (now : Nat) : (e.stepClosing now).1.Sends := by
  have ht := e.stepClosing_turn now
  generalize e.stepClosing now = r at ht
  cases ht with
  | rest | look _ _ => exact h
  | @post b deadline hclosing hstep =>
    have hready := h deadline hclosing
    have hroom : e.actor.mailbox.items.length < e.actor.mailbox.capacity := by
      have hitems := hs.items_length_le
      rw [hu.capacity]
      omega
    obtain ⟨x, hx, -⟩ := hready
    have hwant : e.actor.mailbox.want? closerId = some x.want := by simp [Mailbox.want?, hx]
    have hstill := (h deadline hclosing).step hroom (hs.closer_errand hwant ▸ hwant) (by rw [hstep])
    rw [hstep] at hstill
    exact fun _ _ => hstill
  | posted _ _ | refused _ _ | timeOut _ | await _ | lose | goOn _ | leave | force _ _ =>
    exact .of_closing fun _ => Closing.noConfusion

theorem Sends.next {e : Engine} (h : e.Sends) (hs : e.Sound) (hu : e.Unhindered) (ev : Event) :
    (e.next ev).Sends := by
  cases hev : ev.isOfShutdown with
  | false =>
    have hspares : Mailbox.Spares closerId e.actor.mailbox (e.next ev).actor.mailbox :=
      next_spares (by decide) (fun _ => by decide) (by simp [hev])
    intro deadline hclosing
    rw [(hs.next_closing hev).closing] at hclosing
    exact hspares.isReady (h deadline hclosing)
  | true =>
    cases ev with
    | shutdown now => exact h.shutdown hs now
    | close now => exact h.stepClosing hs hu now
    | abandonShutdown =>
      rw [Engine.next]
      rcases e.abandonShutdown_turn with hsame | ⟨hover, -, -⟩
      · rwa [hsame]
      · refine .of_closing fun deadline => ?_
        rw [hover]
        exact Closing.noConfusion
    | mutate _ | storeRuntime _ | advanceRuntime | request | settled _ | watch _ | unwatch _
    | pump _ | act _ | respond _ | explode => cases hev

end Reconciliation.Engine
