import Reconciliation.Proofs.Engine.Settlement
import Reconciliation.Proofs.Store.LastWrite
import Reconciliation.Proofs.Worker.Scheduling
import Reconciliation.Proofs.Worker.Supervisor

/-! # All that can happen to an engine

Panics, cancelling and the shutdown included: what one event does to the tickets, the commands and
the work at hand. What is always true of an engine is derived from that once for all.
-/
namespace Reconciliation

/-- A store gets there from another one: nothing was changed, or the change count has grown. -/
def Store.Reaches (s t : Store) : Prop :=
  t.snapshot = s.snapshot ∨ s.changeCount < t.changeCount

namespace Store.Reaches

theorem refl (s : Store) : s.Reaches s :=
  Or.inl rfl

theorem changeCount_le {s t : Store} (h : s.Reaches t) : s.changeCount ≤ t.changeCount := by
  rcases h with h | h
  · exact (congrArg Snapshot.changeCount h).ge
  · exact h.le

theorem trans {s t u : Store} (h : s.Reaches t) (h' : t.Reaches u) : s.Reaches u := by
  rcases h' with hu | hu
  · rcases h with ht | ht
    · exact Or.inl (hu.trans ht)
    · exact Or.inr (ht.trans_eq (congrArg Snapshot.changeCount hu).symm)
  · exact Or.inr (h.changeCount_le.trans_lt hu)

theorem snapshot_eq {s t : Store} (h : s.Reaches t) (hle : t.changeCount ≤ s.changeCount) :
    t.snapshot = s.snapshot := by
  rcases h with h | h
  · exact h
  · omega

theorem mutate (s : Store) (m : Mutation) : s.Reaches (s.mutate m).1 := by
  cases hchange : (s.mutate m).2.change with
  | none => exact Or.inl (mutate_unheard hchange)
  | some n =>
    obtain ⟨hn, hcount⟩ := mutate_heard s hchange
    right
    omega

end Store.Reaches

/-- The tickets that can be out in a phase: the latest one while a pass is running, and none or the
latest one when all is closed. -/
def Debouncer.HoldsLatest (d : Debouncer) : Prop :=
  match d.phase with
  | .idle | .queued => d.held = []
  | .running _ => d.held = [d.issued]
  | .closed => d.held = [] ∨ d.held = [d.issued]

namespace Debouncer.HoldsLatest

variable {d d' : Debouncer}

theorem held_eq (h : d.HoldsLatest) : d.held = [] ∨ d.held = [d.issued] := by
  unfold HoldsLatest at h
  split at h
  · exact Or.inl h
  · exact Or.inl h
  · exact Or.inr h
  · exact h

theorem of_eq (h : d.HoldsLatest) (hphase : d'.phase = d.phase) (hissued : d'.issued = d.issued)
    (hheld : d'.held = d.held) : d'.HoldsLatest := by
  unfold HoldsLatest
  rw [hphase, hissued, hheld]
  exact h

theorem request (h : d.HoldsLatest) : d.request.1.HoldsLatest := by
  obtain ⟨hissued, hheld⟩ := d.request_tickets
  unfold HoldsLatest at h ⊢
  rw [d.request_phase, hissued, hheld]
  cases hphase : d.phase <;> rw [hphase] at h <;> exact h

theorem close (h : d.HoldsLatest) : d.close.HoldsLatest :=
  h.held_eq

theorem issue (h : d.HoldsLatest) (hqueued : d.phase = .queued) (hphase : d'.phase = .running false)
    (hheld : d'.held = d.held ++ [d'.issued]) : d'.HoldsLatest := by
  unfold HoldsLatest at h ⊢
  rw [hqueued] at h
  rw [hphase, hheld, h]
  rfl

theorem held_eq_singleton (h : d.HoldsLatest) {serial : Nat} (hout : serial ∈ d.held) :
    d.held = [serial] := by
  rcases h.held_eq with hheld | hheld
  · rw [hheld] at hout
    cases hout
  · rw [hheld] at hout ⊢
    rw [List.mem_singleton.1 hout]

theorem giveBack (h : d.HoldsLatest) {serial : Nat} (hout : serial ∈ d.held) :
    (d.giveBack serial).HoldsLatest := by
  obtain ⟨hissued, hheld⟩ := d.giveBack_tickets serial
  have hnone : (d.giveBack serial).held = [] := by
    rw [hheld, h.held_eq_singleton hout, List.erase_cons_head]
  unfold HoldsLatest
  rw [d.giveBack_phase, hnone]
  unfold HoldsLatest at h
  cases hphase : d.phase with
  | idle | queued => rfl
  | closed => exact Or.inl rfl
  | running dirty => cases dirty <;> rfl

end Debouncer.HoldsLatest

namespace Supervisor

variable {α : Type} {s : Supervisor α}

def waiting (s : Supervisor α) : List α :=
  s.stage.inHand ++ s.mailbox.items

def orders (s : Supervisor α) : List α :=
  s.stage.atWork ++ s.waiting

theorem orders_of_taken {m : α} (hstage : s.stage = .received m ∨ s.stage = .handling m) :
    s.orders = m :: s.mailbox.items := by
  unfold orders waiting
  rcases hstage with hstage | hstage <;> rw [hstage] <;> rfl

end Supervisor

namespace Engine

def Command.serial? : Command → Option Nat
  | pass serial => some serial
  | shutdown => none

def Work.serial? : Work → Option Nat
  | opening serial | knowingRevision serial _ | knowingRuntime serial _ _
  | deploying serial _ _ _ => some serial
  | unpublishing | tearingDown _ => none

def Pump.ticket? : Pump → Option Nat
  | sending serial => some serial
  | asking | ended => none

def carried (e : Engine) : List Nat :=
  e.actor.orders.filterMap Command.serial? ++ e.pump.ticket?.toList

def Expects (e : Engine) (x : Nat × Mailbox.Want Command) : Prop :=
  x = (Supervisor.receiver, .receive) ∨
    (∃ serial, e.pump = .sending serial ∧ x = (pumpId, .send (.pass serial))) ∨
    ∃ deadline, e.closing = .sending deadline ∧ x = (closerId, .send .shutdown)

inductive Attuned : Supervisor.Stage Command → Option Work → Prop where
  | idle {stage : Supervisor.Stage Command} (h : stageLoad stage = 0) : Attuned stage none
  | received (m : Command) : Attuned (.received m) none
  | handling {m : Command} {w : Work} (h : w.serial? = m.serial?) : Attuned (.handling m) (some w)

/-- Stages that lead to no generation any more: the actor was told to stop. -/
def IsOver : Supervisor.Stage Command → Prop
  | .stopping .stopped | .ended .stopped | .finished => True
  | _ => False

/-- Stages after the work of a generation: the actor has exited, in whatever way. -/
def HasExited : Supervisor.Stage Command → Prop
  | .stopping _ | .ended _ | .backingOff _ | .finished => True
  | _ => False

structure Sound (e : Engine) : Prop where
  errands : ∀ x ∈ e.actor.mailbox.errands, e.Expects x
  attuned : Attuned e.actor.stage e.work
  carried : e.carried = e.debouncer.held
  latest : e.debouncer.HoldsLatest
  shut : e.closed = true → e.debouncer.phase = .closed
  unshut : e.closed = false → e.closing = .open ∧ e.actor.cancelled = false
  unsent : e.closing = .open ∨ (∃ deadline, e.closing = .sending deadline) →
    Command.shutdown ∉ e.actor.orders
  once : e.actor.orders.count .shutdown ≤ 1
  joining : ∀ report, e.closing = .joining report → e.reply = .given report
  given : ∀ report, e.reply = .given report → IsOver e.actor.stage

/-- What a step of the actor or its supervisor can do, cancelled or not. -/
inductive ActorMove (e : Engine) : Engine → Prop where
  | turn {e' : Engine} (h : ActorTurn e e') : ActorMove e e'
  /-- No command is concerned. -/
  | idle {a : Supervisor Command} (hfrom : stageLoad e.actor.stage = 0) (hto : stageLoad a.stage = 0)
      (hitems : a.mailbox.items = e.actor.mailbox.items)
      (herrands : a.mailbox.errands ⊆ e.actor.mailbox.errands)
      (hcancelled : a.cancelled = e.actor.cancelled)
      (hover : IsOver e.actor.stage → IsOver a.stage)
      (hclosed : a.mailbox.closed = e.actor.mailbox.closed)
      (hexit : HasExited a.stage → HasExited e.actor.stage ∨ e.actor.cancelled = true ∨
        e.actor.mailbox.closed = true ∧ e.actor.mailbox.items = []) :
      ActorMove e { e with actor := a }
  /-- The actor has been cancelled, and lets go of its command. -/
  | cut {m : Command} (hcancelled : e.actor.cancelled = true)
      (hstage : e.actor.stage = .received m ∨ e.actor.stage = .handling m) :
      ActorMove e (({ e with actor := e.actor.cut, work := none } : Engine).dropCommand m)
  | beginTeardown (hstage : e.actor.stage = .received .shutdown) :
      ActorMove e { e with
        actor := { e.actor with stage := .handling .shutdown }
        work := some .unpublishing }
  | unpublish (hwork : e.work = some .unpublishing) :
      ActorMove e { e with
        board := e.board.unpublish
        work := some (.tearingDown (.teardown e.live)) }
  | endTeardown {run : Run} (hwork : e.work = some (.tearingDown run)) (hcall : run.call? = none) :
      ActorMove e { e with
        live := run.finalLive
        work := none
        reply := .given run.report
        actor := { e.actor with stage := .stopping .stopped } }

theorem ActorMove.of_stage {e : Engine} {a : Supervisor Command}
    (hfrom : stageLoad e.actor.stage = 0) (hto : stageLoad a.stage = 0)
    (hmailbox : a.mailbox = e.actor.mailbox) (hcancelled : a.cancelled = e.actor.cancelled)
    (hover : IsOver e.actor.stage → IsOver a.stage)
    (hexit : HasExited a.stage → HasExited e.actor.stage ∨ e.actor.cancelled = true) :
    ActorMove e { e with actor := a } := by
  refine .idle hfrom hto ?_ ?_ hcancelled hover ?_ fun h => (hexit h).imp_right Or.inl
  · rw [hmailbox]
  · rw [hmailbox]
    exact List.Subset.refl _
  · rw [hmailbox]

theorem isOver_notice (s : Supervisor Command) (now : Nat) {exit : Exit}
    (h : IsOver (.ended exit)) : IsOver (s.notice now exit).stage := by
  cases exit with
  | stopped =>
    obtain ⟨policy, b, cancelled, generation, restarts, lastExit, stage⟩ := s
    cases cancelled <;> cases policy <;> trivial
  | mailboxClosed | cancelled | panicked | startupFailed m | handlerFailed m | joinFailed m =>
    exact h.elim

/-- What a supervisor does while there is no generation that could take a command. -/
theorem step_aside (s : Supervisor Command) (now : Nat) (hload : stageLoad s.stage = 0)
    (haside : s.stage ≠ .receiving) : (s.step now).2 = none ∧
      (s.step now).1.mailbox = s.mailbox ∧ (s.step now).1.cancelled = s.cancelled ∧
      stageLoad (s.step now).1.stage = 0 ∧ (IsOver s.stage → IsOver (s.step now).1.stage) ∧
      (HasExited (s.step now).1.stage → HasExited s.stage ∨ s.cancelled = true) := by
  obtain ⟨policy, b, cancelled, generation, restarts, lastExit, stage⟩ := s
  cases stage with
  | launching | spawned | starting =>
    cases cancelled with
    | true => exact ⟨rfl, rfl, rfl, rfl, False.elim, fun _ => Or.inr rfl⟩
    | false => exact ⟨rfl, rfl, rfl, rfl, False.elim, False.elim⟩
  | receiving => exact absurd rfl haside
  | received m | handling m => cases hload
  | stopping exit =>
    exact ⟨rfl, rfl, rfl, rfl, by cases exit <;> exact id, fun _ => Or.inl trivial⟩
  | ended exit =>
    obtain ⟨n, x, hnotice, hto⟩ := Supervisor.notice_eq
      ⟨policy, b, cancelled, generation, restarts, lastExit, .ended exit⟩ now exit
    have hover : IsOver (.ended exit) → IsOver (Supervisor.notice
        ⟨policy, b, cancelled, generation, restarts, lastExit, .ended exit⟩ now exit).stage :=
      isOver_notice _ now
    simp only [Supervisor.step, hnotice] at hover ⊢
    refine ⟨trivial, trivial, trivial, ?_, hover, fun _ => Or.inl trivial⟩
    rcases hto with rfl | ⟨due, rfl⟩ <;> rfl
  | backingOff due =>
    cases cancelled with
    | true => exact ⟨rfl, rfl, rfl, rfl, False.elim, fun _ => Or.inl trivial⟩
    | false =>
      simp only [Supervisor.step, Bool.false_eq_true, if_false]
      split <;> exact ⟨rfl, rfl, rfl, rfl, False.elim, fun _ => Or.inl trivial⟩
  | finished => exact ⟨rfl, rfl, rfl, rfl, id, Or.inl⟩

namespace Sound

variable {e : Engine}

theorem handling_of_work (h : e.Sound) {w : Work} (hwork : e.work = some w) :
    ∃ m, e.actor.stage = .handling m ∧ w.serial? = m.serial? := by
  have hattuned := h.attuned
  rw [hwork] at hattuned
  generalize e.actor.stage = stage at hattuned
  cases hattuned with
  | handling hw => exact ⟨_, rfl, hw⟩

theorem handling_pass (h : e.Sound) {w : Work} {serial : Nat} (hwork : e.work = some w)
    (hserial : w.serial? = some serial) : e.actor.stage = .handling (.pass serial) := by
  obtain ⟨m, hstage, hm⟩ := h.handling_of_work hwork
  rw [hserial] at hm
  cases m with
  | pass n => rw [hstage, Option.some.inj hm]
  | shutdown => cases hm

theorem handling_shutdown (h : e.Sound) {w : Work} (hwork : e.work = some w)
    (hserial : w.serial? = none) : e.actor.stage = .handling .shutdown := by
  obtain ⟨m, hstage, hm⟩ := h.handling_of_work hwork
  rw [hserial] at hm
  cases m with
  | pass n => cases hm
  | shutdown => exact hstage

theorem receiver_errand (h : e.Sound) {w : Mailbox.Want Command}
    (hw : e.actor.mailbox.want? Supervisor.receiver = some w) : w = .receive := by
  rcases h.errands _ (Mailbox.mem_errands_of_want? _ _ hw) with hx | ⟨n, -, hx⟩ | ⟨d, -, hx⟩
  · exact congrArg Prod.snd hx
  · cases hx
  · cases hx

theorem pump_errand (h : e.Sound) {w : Mailbox.Want Command}
    (hw : e.actor.mailbox.want? pumpId = some w) :
    ∃ serial, e.pump = .sending serial ∧ w = .send (.pass serial) := by
  rcases h.errands _ (Mailbox.mem_errands_of_want? _ _ hw) with hx | ⟨n, hpump, hx⟩ | ⟨d, -, hx⟩
  · cases hx
  · exact ⟨n, hpump, congrArg Prod.snd hx⟩
  · cases hx

theorem closer_errand (h : e.Sound) {w : Mailbox.Want Command}
    (hw : e.actor.mailbox.want? closerId = some w) : w = .send .shutdown := by
  rcases h.errands _ (Mailbox.mem_errands_of_want? _ _ hw) with hx | ⟨n, -, hx⟩ | ⟨d, -, hx⟩
  · cases hx
  · cases hx
  · exact congrArg Prod.snd hx

theorem receive_move (h : e.Sound) (hstage : e.actor.stage = .receiving) :
    ActorMove e { e with actor := e.actor.receive } := by
  unfold Supervisor.receive
  by_cases hcaller : (e.actor.mailbox.caller? Supervisor.receiver).isNone = true
  · rw [if_pos hcaller]
    exact .turn (.ask hstage)
  · rw [if_neg hcaller]
    have heffect := e.actor.mailbox.step_effect Supervisor.receiver
    generalize hstep : e.actor.mailbox.step Supervisor.receiver = r at heffect
    obtain ⟨b, outcome⟩ := r
    cases heffect with
    | still hitems hclosed herrands => exact .turn (.wait hstage (.still hitems hclosed herrands))
    | received hwant hitems hclosed herrands =>
      exact .turn (.take hstage (.received hwant hitems hclosed herrands))
    | drained _ hshut hempty hitems hclosed herrands =>
      refine .idle (congrArg stageLoad hstage) rfl (hitems.trans hempty.symm) ?_ rfl ?_ hclosed
        fun _ => Or.inr (Or.inr ⟨hshut, hempty⟩)
      · rw [herrands]
        exact List.filter_sublist.subset
      · rw [hstage]
        exact False.elim
    | sent hwant _ _ _ _ _ => cases h.receiver_errand hwant
    | refused hwant _ _ _ _ => cases h.receiver_errand hwant

theorem stepWork_move (h : e.Sound) : ActorMove e e.stepWork := by
  unfold Engine.stepWork
  split
  · exact .turn .rest
  · rename_i serial hwork
    exact .turn (.readRevision hwork)
  · rename_i serial revision hwork
    exact .turn (.readRuntime hwork)
  · rename_i serial revision runtime hwork
    exact .turn (.readStore hwork)
  · rename_i serial changeCount resolution run hwork
    cases hcall : run.call? with
    | some c => exact .turn .rest
    | none => exact .turn (.complete (h.handling_pass hwork rfl) hwork hcall)
  · rename_i hwork
    exact .unpublish hwork
  · rename_i run hwork
    cases hcall : run.call? with
    | some c => exact .turn .rest
    | none =>
      have hactor : e.actor.handled .stop = { e.actor with stage := .stopping .stopped } := by
        simp [Supervisor.handled, h.handling_shutdown hwork rfl]
      simp only [hactor]
      exact .endTeardown hwork hcall

theorem stepActor_cut {now : Nat} {m : Command} (hcancelled : e.actor.cancelled = true)
    (hstage : e.actor.stage = .received m ∨ e.actor.stage = .handling m) :
    ActorMove e (e.stepActor now) := by
  have hact : e.stepActor now =
      ({ e with actor := e.actor.cut, work := none } : Engine).dropCommand m := by
    rcases hstage with hstage | hstage <;>
      simp [stepActor, Supervisor.canStep, Supervisor.step, hstage, hcancelled]
  rw [hact]
  exact .cut hcancelled hstage

theorem stepActor_aside {now : Nat} (hload : stageLoad e.actor.stage = 0)
    (haside : e.actor.stage ≠ .receiving) : ActorMove e (e.stepActor now) := by
  obtain ⟨hnone, hmailbox, hcancelled, hto, hover, hexit⟩ := step_aside e.actor now hload haside
  have hreceived : ∀ m, e.actor.stage ≠ .received m := by
    intro m hstage
    rw [hstage] at hload
    cases hload
  have hstep : e.actor.step now = ((e.actor.step now).1, none) := Prod.ext rfl hnone
  unfold stepActor
  split
  · rw [hstep]
    dsimp only
    split
    · rename_i m hstage
      exact absurd hstage (hreceived m)
    · exact .of_stage hload hto hmailbox hcancelled hover hexit
  · split
    · rename_i hstage
      have hactor : e.actor.started .ready = { e.actor with stage := .receiving } := by
        simp [Supervisor.started, hstage]
      rw [hactor]
      exact .turn (.ready hstage)
    · rename_i m hstage
      rw [hstage] at hload
      cases hload
    · exact .turn .rest

theorem stepActor_move (h : e.Sound) (now : Nat) : ActorMove e (e.stepActor now) := by
  cases hstage : e.actor.stage with
  | launching | spawned | starting | stopping exit | ended exit | backingOff due | finished =>
    exact stepActor_aside (congrArg stageLoad hstage) (by rw [hstage]; exact nofun)
  | receiving =>
    cases hc : e.actor.cancelled with
    | true =>
      have hact : e.stepActor now = { e with actor := e.actor.cut } := by
        simp [stepActor, Supervisor.canStep, Supervisor.step, hstage, hc]
      rw [hact]
      refine .idle (congrArg stageLoad hstage) rfl (Mailbox.leave_items _ _) ?_ rfl ?_
        (Mailbox.leave_closed _ _) fun _ => Or.inr (Or.inl hc)
      · rw [Supervisor.cut, Mailbox.leave_errands]
        exact List.filter_sublist.subset
      · rw [hstage]
        exact False.elim
    | false =>
      by_cases hcan : e.actor.canStep now = true
      · have hact : e.stepActor now = { e with actor := e.actor.receive } := by
          simp [stepActor, Supervisor.step, hstage, hc, hcan]
        rw [hact]
        exact h.receive_move hstage
      · have hact : e.stepActor now = e := by
          simp [stepActor, hstage, hcan]
        rw [hact]
        exact .turn .rest
  | received m =>
    cases hc : e.actor.cancelled with
    | true => exact stepActor_cut hc (Or.inl hstage)
    | false =>
      have hact : e.stepActor now = { e with
          actor := { e.actor with stage := .handling m }
          work := some (workOf m) } := by
        simp [stepActor, Supervisor.canStep, Supervisor.step, hstage, hc]
      rw [hact]
      cases m with
      | pass serial => exact .turn (.begin hstage)
      | shutdown => exact .beginTeardown hstage
  | handling m =>
    cases hc : e.actor.cancelled with
    | true => exact stepActor_cut hc (Or.inr hstage)
    | false =>
      have hact : e.stepActor now = e.stepWork := by
        simp [stepActor, Supervisor.canStep, hstage, hc]
      rw [hact]
      exact h.stepWork_move

end Sound

/-- The shutdown command has been sent, or there is nobody any more to send it. -/
def Closing.PastSending : Closing → Prop
  | .open | .sending _ => False
  | _ => True

inductive Move (e : Engine) (ev : Event) : Engine → Prop where
  | rest : Move e ev e
  | watch {b : StatusBoard} (hcurrent : b.current = e.board.current)
      (hnotice : b.notice = e.board.notice) (hversion : b.version = e.board.version)
      (hwatchers : ∀ w ∈ b.watchers,
        (∃ v ∈ e.board.watchers, v.id = w.id ∧ v.target = w.target) ∨
          ev = .settled w.id ∧ w.target = e.changeCount) :
      Move e ev { e with board := b }
  | write {store : Store} {runtime : Runtime} (hstore : e.store.Reaches store)
      (hruntime : e.runtime.revision ≤ runtime.revision) : Move e ev { e with store, runtime }
  | change {store : Store} {runtime : Runtime} (hstore : e.store.Reaches store)
      (hruntime : e.runtime.revision ≤ runtime.revision) :
      Move e ev ({ e with store, runtime } : Engine).request.1
  | pump {e' : Engine} {now : Nat} (h : PumpTurn e e') (hev : ev = .pump now) : Move e ev e'
  | actor {e' : Engine} (h : ActorMove e e') : Move e ev e'
  | answer {serial changeCount : Nat} {resolution : Resolution} {run : Run}
      (hwork : e.work = some (.deploying serial changeCount resolution run)) (response : Response)
      (hev : ev = .respond response) :
      Move e ev { e with
        live := (run.answer response).live
        work := some (.deploying serial changeCount resolution (run.answer response)) }
  | answerTeardown {run : Run} (hwork : e.work = some (.tearingDown run)) (response : Response)
      (hev : ev = .respond response) :
      Move e ev { e with
        live := (run.answer response).live
        work := some (.tearingDown (run.answer response)) }
  | explode {m : Command} (hev : ev = .explode) (hstage : e.actor.stage = .handling m) :
      Move e ev (({ e with
        actor := { e.actor with stage := .ended .panicked }
        work := none } : Engine).dropCommand m)
  | shutdown {now : Nat} (hev : ev = .shutdown now) (hopen : e.closed = false) :
      Move e ev { e with
        closed := true
        listening := false
        debouncer := e.debouncer.close
        closing := .sending (e.lastMoment now)
        actor := { e.actor with mailbox := e.actor.mailbox.join closerId (.send .shutdown) } }
  | post {b : Mailbox Command} {deadline : Nat} (hclosing : e.closing = .sending deadline)
      (heffect : Mailbox.Effect e.actor.mailbox closerId b none) :
      Move e ev { e with actor := { e.actor with mailbox := b } }
  | posted {b : Mailbox Command} {deadline : Nat} (hclosing : e.closing = .sending deadline)
      (heffect : Mailbox.Effect e.actor.mailbox closerId b (some .sent)) :
      Move e ev { e with actor := { e.actor with mailbox := b }, closing := .awaiting deadline }
  | close {a : Supervisor Command} {j : JoinControl} {c : Closing} (hclosing : e.closing ≠ .open)
      (hpast : c.PastSending) (hjoining : ∀ report, c = .joining report → e.reply = .given report)
      (hstage : a.stage = e.actor.stage) (hitems : a.mailbox.items = e.actor.mailbox.items)
      (herrands : ∀ x ∈ a.mailbox.errands, x ∈ e.actor.mailbox.errands ∧ x.1 ≠ closerId) :
      Move e ev { e with actor := a, join := j, closing := c }

namespace Sound

variable {e : Engine} {ev : Event}

theorem mutate_move (m : Mutation) : Move e ev (e.mutate m).1 := by
  have hstore := Store.Reaches.mutate e.store m
  unfold Engine.mutate
  dsimp only
  split
  · unfold heard
    split
    · exact .change hstore le_rfl
    · exact .write hstore le_rfl
  · exact .write hstore le_rfl

theorem advanceRuntime_move : Move e ev e.advanceRuntime := by
  unfold advanceRuntime heard
  split
  · exact .change (.refl _) (Nat.le_succ _)
  · exact .write (.refl _) (Nat.le_succ _)

theorem watch_move (c : Nat) : Move e ev (e.watch c).1 := by
  obtain ⟨hcurrent, hnotice, hversion⟩ := e.board.step_shows c
  exact .watch hcurrent hnotice hversion fun w hw => Or.inl (e.board.step_watchers c w hw)

theorem settled_move (c : Nat) : Move e (.settled c) (e.settled c) := by
  refine .watch rfl rfl rfl ?_
  intro w hw
  rcases List.mem_append.1 hw with hw | hw
  · exact Or.inl ⟨w, hw, rfl, rfl⟩
  · obtain rfl := List.mem_singleton.1 hw
    exact Or.inr ⟨rfl, rfl⟩

theorem unwatch_move (c : Nat) : Move e ev (e.unwatch c) :=
  .watch rfl rfl rfl fun w hw => Or.inl ⟨w, (List.mem_filter.1 hw).1, rfl, rfl⟩

theorem respond_move (response : Response) : Move e (.respond response) (e.respond response) := by
  unfold respond
  split
  · rename_i hwork
    exact .answer hwork response rfl
  · rename_i hwork
    exact .answerTeardown hwork response rfl
  · exact .rest

theorem explode_move : Move e .explode e.explode := by
  unfold Engine.explode
  split
  · rename_i m hstage
    have hactor : e.actor.handled .panicked = { e.actor with stage := .ended .panicked } := by
      simp [Supervisor.handled, hstage]
    rw [hactor]
    exact .explode rfl hstage
  · exact .rest

theorem shutdown_move (now : Nat) : Move e (.shutdown now) (e.shutdown now).1 := by
  unfold Engine.shutdown
  cases hclosed : e.closed with
  | true => exact .rest
  | false => exact .shutdown rfl hclosed

theorem errand_ne_closer (h : e.Sound) (hpast : e.closing.PastSending) :
    ∀ x ∈ e.actor.mailbox.errands, x ∈ e.actor.mailbox.errands ∧ x.1 ≠ closerId := by
  intro x hx
  refine ⟨hx, ?_⟩
  rcases h.errands x hx with rfl | ⟨n, -, rfl⟩ | ⟨d, hclosing, rfl⟩
  · exact nofun
  · exact nofun
  · rw [hclosing] at hpast
    exact hpast.elim

theorem leave_ne_closer (b : Mailbox Command) :
    ∀ x ∈ (b.leave closerId).errands, x ∈ b.errands ∧ x.1 ≠ closerId := by
  intro x hx
  rw [Mailbox.leave_errands] at hx
  obtain ⟨hx, hne⟩ := List.mem_filter.1 hx
  exact ⟨hx, by simpa using hne⟩

theorem timeOut_move (hclosing : e.closing ≠ .open) : Move e ev e.timeOut.1 :=
  .close (j := e.join) (c := .handedOver) hclosing trivial nofun rfl (Mailbox.leave_items _ _)
    (leave_ne_closer _)

theorem move_on (h : e.Sound) (hpast : e.closing.PastSending) {a : Supervisor Command}
    {j : JoinControl} {c : Closing} (hto : c.PastSending)
    (hjoining : ∀ report, c = .joining report → e.reply = .given report)
    (hstage : a.stage = e.actor.stage) (hitems : a.mailbox.items = e.actor.mailbox.items)
    (herrands : a.mailbox.errands = e.actor.mailbox.errands) :
    Move e ev { e with actor := a, join := j, closing := c } := by
  refine .close ?_ hto hjoining hstage hitems ?_
  · intro hclosing
    rw [hclosing] at hpast
    exact hpast
  · rw [herrands]
    exact h.errand_ne_closer hpast

theorem join_move (h : e.Sound) (hpast : e.closing.PastSending) (j : JoinControl) {c : Closing}
    (hto : c.PastSending) (hjoining : ∀ report, c = .joining report → e.reply = .given report) :
    Move e ev { e with join := j, closing := c } :=
  h.move_on (a := e.actor) hpast hto hjoining rfl rfl rfl

theorem join_rest (h : e.Sound) (hpast : e.closing.PastSending) (j : JoinControl) :
    Move e ev { e with join := j } :=
  h.join_move hpast j hpast h.joining

theorem stepClosing_move (h : e.Sound) (now : Nat) : Move e ev (e.stepClosing now).1 := by
  have hpast {c : Closing} (hclosing : e.closing = c) (hc : c.PastSending) :
      e.closing.PastSending := by
    rwa [hclosing]
  unfold stepClosing
  split
  · exact .rest
  · exact .rest
  · rename_i deadline hclosing
    have hopen : e.closing ≠ .open := by
      rw [hclosing]
      exact nofun
    split
    · have heffect := e.actor.mailbox.step_effect closerId
      generalize e.actor.mailbox.step closerId = r at heffect
      obtain ⟨b, outcome⟩ := r
      dsimp only at heffect
      cases heffect with
      | still hitems hshut herrands => exact .post hclosing (.still hitems hshut herrands)
      | sent hwant hroom hspace hitems hshut herrands =>
        exact .posted hclosing (.sent hwant hroom hspace hitems hshut herrands)
      | refused _ _ hitems _ herrands =>
        refine .close (j := e.join) (c := .over) hopen trivial nofun rfl hitems ?_
        intro x hx
        obtain ⟨hx, hne⟩ := List.mem_filter.1 (herrands ▸ hx)
        exact ⟨hx, by simpa using hne⟩
      | received hwant _ _ _ => cases h.closer_errand hwant
      | drained hwant _ _ _ _ _ => cases h.closer_errand hwant
    · split
      · exact timeOut_move hopen
      · exact .rest
  · rename_i deadline hclosing
    split
    · rename_i report hreply
      refine h.move_on (a := e.actor.close) (hpast hclosing trivial) trivial ?_ rfl rfl rfl
      rintro report' ⟨⟩
      exact hreply
    · exact h.join_move (hpast hclosing trivial) e.join trivial nofun
    · split
      · exact timeOut_move (by rw [hclosing]; exact nofun)
      · exact .rest
  · rename_i report hclosing
    split
    · exact h.join_rest (hpast hclosing trivial) _
    · exact h.join_move (hpast hclosing trivial) _ trivial nofun
  · rename_i hclosing
    exact h.move_on (a := e.actor.close) (hpast hclosing trivial) trivial nofun rfl rfl rfl
  · rename_i hclosing
    split
    · exact h.join_rest (hpast hclosing trivial) _
    · exact h.join_move (hpast hclosing trivial) _ trivial nofun
    · exact h.move_on (a := e.actor.cancel) (hpast hclosing trivial) trivial nofun rfl rfl rfl
  · rename_i hclosing
    split
    · exact h.join_rest (hpast hclosing trivial) _
    · exact h.join_move (hpast hclosing trivial) _ trivial nofun

theorem abandonShutdown_move (h : e.Sound) : Move e ev e.abandonShutdown := by
  have hnoreport : ∀ report, Closing.over = .joining report → e.reply = .given report := by
    intro report hreport
    cases hreport
  cases hclosing : e.closing with
  | sending deadline =>
    have hopen : e.closing ≠ .open := by simp [hclosing]
    simp only [abandonShutdown, hclosing]
    exact .close (j := e.join) hopen trivial hnoreport rfl (Mailbox.leave_items _ _)
      (leave_ne_closer _)
  | awaiting deadline =>
    have hpast : e.closing.PastSending := by rw [hclosing]; trivial
    simp only [abandonShutdown, hclosing]
    exact h.join_move hpast e.join trivial hnoreport
  | joining report =>
    have hpast : e.closing.PastSending := by rw [hclosing]; trivial
    simp only [abandonShutdown, hclosing]
    exact h.join_move hpast _ trivial hnoreport
  | «open» | handedOver | patient | forcing | «over» =>
    simp only [abandonShutdown, hclosing]
    exact .rest

theorem next_move (h : e.Sound) (ev : Event) : Move e ev (e.next ev) := by
  cases ev with
  | mutate m => exact mutate_move m
  | storeRuntime p => exact .write (.refl _) le_rfl
  | advanceRuntime => exact advanceRuntime_move
  | request => exact .change (.refl _) le_rfl
  | settled c => exact settled_move c
  | watch c => exact watch_move c
  | unwatch c => exact unwatch_move c
  | pump now => exact .pump (e.stepPump_turn now) rfl
  | act now => exact .actor (h.stepActor_move now)
  | respond response => exact respond_move response
  | explode => exact explode_move
  | shutdown now => exact shutdown_move now
  | close now => exact h.stepClosing_move now
  | abandonShutdown => exact h.abandonShutdown_move

end Sound

inductive WorkTurn (e : Engine) : Engine → Prop where
  | stay {e' : Engine} (hwork : e'.work = e.work) : WorkTurn e e'
  | rest {e' : Engine} (hwork : e'.work = none) : WorkTurn e e'
  | begin {e' : Engine} {serial : Nat} (hwork : e'.work = some (.opening serial)) : WorkTurn e e'
  | readRevision {serial : Nat} (hwork : e.work = some (.opening serial)) :
      WorkTurn e { e with work := some (.knowingRevision serial e.runtime.revision) }
  | readRuntime {serial revision : Nat} (hwork : e.work = some (.knowingRevision serial revision)) :
      WorkTurn e { e with work := some (.knowingRuntime serial revision e.runtime.properties) }
  | readStore {serial revision : Nat} {runtime : Properties}
      (hwork : e.work = some (.knowingRuntime serial revision runtime)) :
      WorkTurn e { e with
        work := some (.deploying serial (e.store.changeCount + revision)
          (e.reconciler.run e.store.snapshot runtime)
          (.towards e.live (e.reconciler.run e.store.snapshot runtime).applications)) }
  | answer {e' : Engine} {serial changeCount : Nat} {resolution : Resolution} {run run' : Run}
      (hwork : e.work = some (.deploying serial changeCount resolution run))
      (hwork' : e'.work = some (.deploying serial changeCount resolution run')) : WorkTurn e e'
  | teardown {e' : Engine} {w : Work} (hwork : e'.work = some w) (hserial : w.serial? = none) :
      WorkTurn e e'

inductive BoardTurn (e : Engine) : StatusBoard → Prop where
  | stay {b : StatusBoard} (hcurrent : b.current = e.board.current)
      (hnotice : b.notice = e.board.notice) (hversion : b.version = e.board.version) : BoardTurn e b
  | publish {serial changeCount : Nat} {resolution : Resolution} {run : Run}
      (hwork : e.work = some (.deploying serial changeCount resolution run))
      (hcall : run.call? = none) :
      BoardTurn e (e.board.publish (.ofResolution resolution changeCount serial))
  | unpublish (hwork : e.work = some .unpublishing) : BoardTurn e e.board.unpublish

/-- What can come of the pump, and of whether a shutdown has been called. -/
inductive FlowTurn (e : Engine) (ev : Event) : Engine → Prop where
  | shutdown {e' : Engine} {now : Nat} (hev : ev = .shutdown now) (hopen : e.closed = false)
      (hpump : e'.pump = e.pump) : FlowTurn e ev e'
  | pump {e' : Engine} {now : Nat} (hev : ev = .pump now) (ht : PumpTurn e e')
      (hclosed : e'.closed = e.closed) : FlowTurn e ev e'
  | stay {e' : Engine} (hpump : e'.pump = e.pump) (hclosed : e'.closed = e.closed) : FlowTurn e ev e'

namespace Move

variable {e e' : Engine} {ev : Event}

theorem work_turn (hm : Move e ev e') : WorkTurn e e' := by
  cases hm with
  | rest | watch _ _ _ _ | write _ _ | change _ _ | shutdown _ _ | post _ _ | posted _ _
  | close _ _ _ _ _ _ => exact .stay rfl
  | pump ht => cases ht <;> exact .stay rfl
  | actor hm =>
    cases hm with
    | turn ht =>
      cases ht with
      | rest | launch _ | spawn _ | ready _ | ask _ | wait _ _ | take _ _ => exact .stay rfl
      | begin _ => exact .begin rfl
      | readRevision hwork => exact .readRevision hwork
      | readRuntime hwork => exact .readRuntime hwork
      | readStore hwork => exact .readStore hwork
      | complete _ _ _ => exact .rest rfl
    | idle _ _ _ _ _ _ => exact .stay rfl
    | @cut m _ _ => cases m <;> exact .rest rfl
    | beginTeardown _ => exact .teardown rfl rfl
    | unpublish _ => exact .teardown rfl rfl
    | endTeardown _ _ => exact .rest rfl
  | answer hwork response => exact .answer hwork rfl
  | answerTeardown _ _ => exact .teardown rfl rfl
  | @explode m _ _ => cases m <;> exact .rest rfl

theorem board_turn (hm : Move e ev e') : BoardTurn e e'.board := by
  cases hm with
  | rest | write _ _ | change _ _ | shutdown _ _ | post _ _ | posted _ _
  | close _ _ _ _ _ _ | answer _ _ | answerTeardown _ _ => exact .stay rfl rfl rfl
  | watch hcurrent hnotice hversion _ => exact .stay hcurrent hnotice hversion
  | pump ht => cases ht <;> exact .stay rfl rfl rfl
  | actor hm =>
    cases hm with
    | turn ht =>
      cases ht with
      | rest | launch _ | spawn _ | ready _ | ask _ | wait _ _ | take _ _ | begin _
      | readRevision _ | readRuntime _ | readStore _ => exact .stay rfl rfl rfl
      | complete _ hwork hcall => exact .publish hwork hcall
    | idle _ _ _ _ _ _ | beginTeardown _ | endTeardown _ _ => exact .stay rfl rfl rfl
    | @cut m _ _ => cases m <;> exact .stay rfl rfl rfl
    | unpublish hwork => exact .unpublish hwork
  | @explode m _ _ => cases m <;> exact .stay rfl rfl rfl

theorem flow_turn (hm : Move e ev e') : FlowTurn e ev e' := by
  cases hm with
  | rest | watch _ _ _ _ | write _ _ | change _ _ | post _ _ | posted _ _
  | close _ _ _ _ _ _ | answer _ _ | answerTeardown _ _ => exact .stay rfl rfl
  | shutdown hev hopen => exact .shutdown hev hopen rfl
  | pump ht hev =>
    refine .pump hev ht ?_
    cases ht <;> rfl
  | actor hm =>
    cases hm with
    | turn ht => cases ht <;> exact .stay rfl rfl
    | idle _ _ _ _ _ _ | beginTeardown _ | unpublish _ | endTeardown _ _ => exact .stay rfl rfl
    | @cut m _ _ => cases m <;> exact .stay rfl rfl
  | @explode m _ _ => cases m <;> exact .stay rfl rfl

theorem inputs (hm : Move e ev e') : e.store.Reaches e'.store ∧
    e.runtime.revision ≤ e'.runtime.revision ∧ e'.reconciler = e.reconciler := by
  have hkept : e.store.Reaches e.store ∧ e.runtime.revision ≤ e.runtime.revision ∧
      e.reconciler = e.reconciler := ⟨.refl _, le_rfl, rfl⟩
  cases hm with
  | rest | watch _ _ _ _ | shutdown _ _ | post _ _ | posted _ _
  | close _ _ _ _ _ _ | answer _ _ | answerTeardown _ _ => exact hkept
  | write hstore hruntime | change hstore hruntime => exact ⟨hstore, hruntime, rfl⟩
  | pump ht => cases ht <;> exact hkept
  | actor hm =>
    cases hm with
    | turn ht => cases ht <;> exact hkept
    | idle _ _ _ _ _ _ | beginTeardown _ | unpublish _ | endTeardown _ _ => exact hkept
    | @cut m _ _ => cases m <;> exact hkept
  | @explode m _ _ => cases m <;> exact hkept

/-- A watcher's target is the change count at the call that brought the watcher. -/
theorem watchers (hm : Move e ev e') : ∀ w ∈ e'.board.watchers,
    (∃ v ∈ e.board.watchers, v.id = w.id ∧ v.target = w.target) ∨
      ev = .settled w.id ∧ w.target = e.changeCount := by
  have hkept : ∀ w ∈ e.board.watchers,
      (∃ v ∈ e.board.watchers, v.id = w.id ∧ v.target = w.target) ∨
        ev = .settled w.id ∧ w.target = e.changeCount :=
    fun w hw => Or.inl ⟨w, hw, rfl, rfl⟩
  cases hm with
  | rest | write _ _ | change _ _ | shutdown _ _ | post _ _ | posted _ _
  | close _ _ _ _ _ _ | answer _ _ | answerTeardown _ _ => exact hkept
  | watch _ _ _ hwatchers => exact hwatchers
  | pump ht => cases ht <;> exact hkept
  | actor hm =>
    cases hm with
    | turn ht => cases ht <;> exact hkept
    | idle _ _ _ _ _ _ | beginTeardown _ | unpublish _ | endTeardown _ _ => exact hkept
    | @cut m _ _ => cases m <;> exact hkept
  | @explode m _ _ => cases m <;> exact hkept

end Move

end Engine

end Reconciliation
