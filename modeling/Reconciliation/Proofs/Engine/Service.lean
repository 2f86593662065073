import Reconciliation.Engine.Step
import Reconciliation.Proofs.Store.Revision
import Reconciliation.Proofs.Worker.Debouncer
import Reconciliation.Proofs.Worker.Mailbox
import Reconciliation.Proofs.Worker.StatusBoard

/-! # An engine in service

Until it is shut down, an engine has at most one ticket out. It travels with the pump, lies in the
mailbox or is worked on by the actor, and it is out exactly while a pass is running.
-/
namespace Reconciliation

namespace Phase

def outstanding : Phase → Nat
  | running _ => 1
  | idle | queued | closed => 0

theorem outstanding_requested (p : Phase) : p.requested.outstanding = p.outstanding := by
  cases p <;> rfl

theorem outstanding_returned (p : Phase) : p.returned.outstanding = 0 := by
  cases p with
  | running dirty => cases dirty <;> rfl
  | idle | queued | closed => rfl

theorem requested_ne_closed {p : Phase} (h : p ≠ .closed) : p.requested ≠ .closed := by
  cases p with
  | closed => exact absurd rfl h
  | idle | queued | running dirty => exact Phase.noConfusion

theorem returned_ne_closed {p : Phase} (h : p ≠ .closed) : p.returned ≠ .closed := by
  cases p with
  | closed => exact absurd rfl h
  | running dirty => cases dirty <;> exact Phase.noConfusion
  | idle | queued => exact Phase.noConfusion

end Phase

namespace Engine

def Pump.load : Pump → Nat
  | sending _ => 1
  | asking | ended => 0

def stageLoad : Supervisor.Stage Command → Nat
  | .received _ | .handling _ => 1
  | _ => 0

def load (e : Engine) : Nat :=
  e.pump.load + e.actor.mailbox.items.length + stageLoad e.actor.stage

inductive PumpTurn (e : Engine) : Engine → Prop where
  | rest (hpump : e.pump = .ended) : PumpTurn e e
  | look {d : Debouncer} (hpump : e.pump = .asking) (hphase : d.phase = e.debouncer.phase)
      (hissued : d.issued = e.debouncer.issued) (hheld : d.held = e.debouncer.held) :
      PumpTurn e { e with debouncer := d }
  | take {d : Debouncer} {serial : Nat} (hpump : e.pump = .asking)
      (hqueued : e.debouncer.phase = .queued) (hphase : d.phase = .running false)
      (hserial : serial = e.debouncer.issued + 1) (hissued : d.issued = serial)
      (hheld : d.held = e.debouncer.held ++ [serial]) :
      PumpTurn e { e with
        debouncer := d
        pump := .sending serial
        actor := { e.actor with
          mailbox := e.actor.mailbox.join pumpId (.send (.pass serial)) } }
  | finish {d : Debouncer} (hpump : e.pump = .asking) (hclosed : e.debouncer.phase = .closed)
      (hphase : d.phase = .closed) (hissued : d.issued = e.debouncer.issued)
      (hheld : d.held = e.debouncer.held) : PumpTurn e { e with debouncer := d, pump := .ended }
  | wait {b : Mailbox Command} {serial : Nat} (hpump : e.pump = .sending serial)
      (heffect : Mailbox.Effect e.actor.mailbox pumpId b none) :
      PumpTurn e { e with actor := { e.actor with mailbox := b } }
  | leave {b : Mailbox Command} {serial : Nat} (hpump : e.pump = .sending serial)
      (heffect : Mailbox.Effect e.actor.mailbox pumpId b (some .sent)) :
      PumpTurn e { e with
        actor := { e.actor with mailbox := b }
        pump := .asking
        debouncer := e.debouncer.join pumpId }
  | fail {b : Mailbox Command} {serial : Nat} {outcome : Mailbox.Outcome Command}
      (hpump : e.pump = .sending serial) (houtcome : outcome ≠ .sent)
      (heffect : Mailbox.Effect e.actor.mailbox pumpId b (some outcome)) :
      PumpTurn e (({ e with
        actor := { e.actor with mailbox := b }
        pump := .ended } : Engine).giveBack serial)

theorem stepPump_turn (e : Engine) (now : Nat) : PumpTurn e (e.stepPump now) := by
  unfold stepPump
  split
  · rename_i hpump
    have hstep := e.debouncer.step_effect now pumpId
    split
    · rename_i d hd
      rw [hd] at hstep
      cases hstep with
      | still hphase hissued hheld => exact .look hpump hphase hissued hheld
    · rename_i d serial hd
      rw [hd] at hstep
      cases hstep with
      | issued hqueued hphase hissued hheld => exact .take hpump hqueued hphase rfl hissued hheld
    · rename_i d hd
      rw [hd] at hstep
      cases hstep with
      | ended hclosed hphase hissued hheld =>
        exact .finish hpump hclosed (hphase.trans hclosed) hissued hheld
  · rename_i serial hpump
    have hstep := e.actor.mailbox.step_effect pumpId
    split
    · rename_i b hb
      rw [hb] at hstep
      exact .wait hpump hstep
    · rename_i b hb
      rw [hb] at hstep
      exact .leave hpump hstep
    · rename_i b outcome hne hb
      rw [hb] at hstep
      exact .fail hpump hne hstep
  · rename_i hpump
    exact .rest hpump

/-- What a step of the actor can do while it is neither cancelled nor to shut down. -/
inductive ActorTurn (e : Engine) : Engine → Prop where
  | rest : ActorTurn e e
  | launch (hstage : e.actor.stage = .launching) :
      ActorTurn e { e with
        actor := { e.actor with generation := e.actor.generation + 1, stage := .spawned } }
  | spawn (hstage : e.actor.stage = .spawned) :
      ActorTurn e { e with actor := { e.actor with stage := .starting } }
  | ready (hstage : e.actor.stage = .starting) :
      ActorTurn e { e with actor := { e.actor with stage := .receiving } }
  | ask (hstage : e.actor.stage = .receiving) :
      ActorTurn e { e with actor := { e.actor with
        mailbox := e.actor.mailbox.join Supervisor.receiver .receive } }
  | wait {b : Mailbox Command} (hstage : e.actor.stage = .receiving)
      (heffect : Mailbox.Effect e.actor.mailbox Supervisor.receiver b none) :
      ActorTurn e { e with actor := { e.actor with mailbox := b } }
  | take {b : Mailbox Command} {m : Command} (hstage : e.actor.stage = .receiving)
      (heffect : Mailbox.Effect e.actor.mailbox Supervisor.receiver b (some (.received m))) :
      ActorTurn e { e with actor := { e.actor with mailbox := b, stage := .received m } }
  | begin {serial : Nat} (hstage : e.actor.stage = .received (.pass serial)) :
      ActorTurn e { e with
        actor := { e.actor with stage := .handling (.pass serial) }
        work := some (.opening serial) }
  | readRevision {serial : Nat} (hwork : e.work = some (.opening serial)) :
      ActorTurn e { e with work := some (.knowingRevision serial e.runtime.revision) }
  | readRuntime {serial revision : Nat} (hwork : e.work = some (.knowingRevision serial revision)) :
      ActorTurn e { e with work := some (.knowingRuntime serial revision e.runtime.properties) }
  | readStore {serial revision : Nat} {runtime : Properties}
      (hwork : e.work = some (.knowingRuntime serial revision runtime)) :
      ActorTurn e { e with
        work := some (.deploying serial
          ((e.reconciler.run e.store.snapshot runtime).changeCount + revision)
          (e.reconciler.run e.store.snapshot runtime)
          (.towards e.live (e.reconciler.run e.store.snapshot runtime).applications)) }
  | complete {n serial changeCount : Nat} {resolution : Resolution} {run : Run}
      (hstage : e.actor.stage = .handling (.pass n))
      (hwork : e.work = some (.deploying serial changeCount resolution run))
      (hcall : run.call? = none) :
      ActorTurn e (e.completePass serial changeCount resolution run)

def Work.IsPass : Work → Prop
  | .unpublishing | .tearingDown _ => False
  | _ => True

inductive Steady : Supervisor.Stage Command → Option Work → Prop where
  | launching : Steady .launching none
  | spawned : Steady .spawned none
  | starting : Steady .starting none
  | receiving : Steady .receiving none
  | received (serial : Nat) : Steady (.received (.pass serial)) none
  | handling (serial : Nat) {w : Work} (h : w.IsPass) : Steady (.handling (.pass serial)) (some w)

structure InService (e : Engine) : Prop where
  listening : e.listening = true
  unclosed : e.closing = .open
  phase_open : e.debouncer.phase ≠ .closed
  mailbox_open : e.actor.mailbox.closed = false
  uncancelled : e.actor.cancelled = false
  errands : ∀ x ∈ e.actor.mailbox.errands, x = (Supervisor.receiver, .receive) ∨
    ∃ serial, e.pump = .sending serial ∧ x = (pumpId, .send (.pass serial))
  passes : ∀ m ∈ e.actor.mailbox.items, ∃ serial, m = .pass serial
  steady : Steady e.actor.stage e.work
  load : e.load = e.debouncer.phase.outstanding

namespace InService

variable {e : Engine}

theorem start (config : Config) (store : Store) : InService (Engine.start config store) := by
  constructor
  · rfl
  · rfl
  · exact Phase.noConfusion
  · rfl
  · rfl
  · intro x hx
    cases hx
  · intro m hm
    cases hm
  · exact .launching
  · rfl

theorem pump_errand (h : e.InService) {w : Mailbox.Want Command}
    (hw : e.actor.mailbox.want? pumpId = some w) :
    ∃ serial, e.pump = .sending serial ∧ w = .send (.pass serial) := by
  rcases h.errands _ (Mailbox.mem_errands_of_want? _ _ hw) with hx | ⟨serial, hpump, hx⟩
  · cases hx
  · exact ⟨serial, hpump, congrArg Prod.snd hx⟩

theorem receiver_errand (h : e.InService) {w : Mailbox.Want Command}
    (hw : e.actor.mailbox.want? Supervisor.receiver = some w) : w = .receive := by
  rcases h.errands _ (Mailbox.mem_errands_of_want? _ _ hw) with hx | ⟨serial, -, hx⟩
  · exact congrArg Prod.snd hx
  · cases hx

theorem pump_not_refused (h : e.InService) {b : Mailbox Command}
    {outcome : Mailbox.Outcome Command} (houtcome : outcome ≠ .sent)
    (heffect : Mailbox.Effect e.actor.mailbox pumpId b (some outcome)) : False := by
  cases heffect with
  | sent _ _ _ _ _ _ => exact houtcome rfl
  | refused _ hshut _ _ _ =>
    rw [h.mailbox_open] at hshut
    cases hshut
  | received hwant _ _ _ =>
    obtain ⟨n, -, hm⟩ := h.pump_errand hwant
    cases hm
  | drained _ hshut _ _ _ _ =>
    rw [h.mailbox_open] at hshut
    cases hshut

theorem work_eq_none (h : e.InService) (hstage : stageLoad e.actor.stage = 0) : e.work = none := by
  have hs := h.steady
  generalize e.work = w at hs
  generalize e.actor.stage = stage at hs hstage
  cases hs with
  | handling serial hw => cases hstage
  | _ => rfl

theorem work_isPass (h : e.InService) {w : Work} (hwork : e.work = some w) :
    w.IsPass ∧ ∃ serial, e.actor.stage = .handling (.pass serial) := by
  have hs := h.steady
  rw [hwork] at hs
  generalize e.actor.stage = stage at hs
  cases hs with
  | handling serial hw => exact ⟨hw, serial, rfl⟩

theorem receive_turn (h : e.InService) (hstage : e.actor.stage = .receiving) :
    ActorTurn e { e with actor := e.actor.receive } := by
  unfold Supervisor.receive
  by_cases hcaller : (e.actor.mailbox.caller? Supervisor.receiver).isNone = true
  · rw [if_pos hcaller]
    exact .ask hstage
  · rw [if_neg hcaller]
    have hstep := e.actor.mailbox.step_effect Supervisor.receiver
    split
    · rename_i b m hb
      rw [hb] at hstep
      exact .take hstage hstep
    · rename_i b outcome hne hb
      rw [hb] at hstep
      cases hstep with
      | sent hwant _ _ _ _ _ => cases h.receiver_errand hwant
      | refused hwant _ _ _ _ => cases h.receiver_errand hwant
      | received _ _ _ _ => exact absurd rfl (hne _)
      | drained _ hshut _ _ _ _ =>
        rw [h.mailbox_open] at hshut
        cases hshut
    · rename_i b hb
      rw [hb] at hstep
      exact .wait hstage hstep

theorem stepWork_turn (h : e.InService) : ActorTurn e e.stepWork := by
  unfold Engine.stepWork
  split
  · exact .rest
  · rename_i serial hwork
    exact .readRevision hwork
  · rename_i serial revision hwork
    exact .readRuntime hwork
  · rename_i serial revision runtime hwork
    exact .readStore hwork
  · rename_i serial changeCount resolution run hwork
    obtain ⟨-, n, hstage⟩ := h.work_isPass hwork
    cases hcall : run.call? with
    | some c => exact .rest
    | none => exact .complete hstage hwork hcall
  · rename_i hwork
    exact absurd (h.work_isPass hwork).1 id
  · rename_i run hwork
    exact absurd (h.work_isPass hwork).1 id

theorem stepActor_turn (h : e.InService) (now : Nat) : ActorTurn e (e.stepActor now) := by
  have hs := h.steady
  have hc := h.uncancelled
  generalize hw : e.work = w at hs
  generalize hstage : e.actor.stage = stage at hs
  cases hs with
  | launching =>
    have hact : e.stepActor now = { e with
        actor := { e.actor with generation := e.actor.generation + 1, stage := .spawned } } := by
      simp [Engine.stepActor, Supervisor.canStep, Supervisor.step, hstage, hc]
    rw [hact]
    exact .launch hstage
  | spawned =>
    have hact : e.stepActor now = { e with actor := { e.actor with stage := .starting } } := by
      simp [Engine.stepActor, Supervisor.canStep, Supervisor.step, hstage, hc]
    rw [hact]
    exact .spawn hstage
  | starting =>
    have hact : e.stepActor now = { e with actor := { e.actor with stage := .receiving } } := by
      simp [Engine.stepActor, Supervisor.canStep, Supervisor.started, hstage, hc]
    rw [hact]
    exact .ready hstage
  | receiving =>
    by_cases hcan : e.actor.canStep now = true
    · have hact : e.stepActor now = { e with actor := e.actor.receive } := by
        simp [Engine.stepActor, Supervisor.step, hstage, hc, hcan]
      rw [hact]
      exact h.receive_turn hstage
    · have hact : e.stepActor now = e := by
        simp [Engine.stepActor, hstage, hcan]
      rw [hact]
      exact .rest
  | received serial =>
    have hact : e.stepActor now = { e with
        actor := { e.actor with stage := .handling (.pass serial) }
        work := some (.opening serial) } := by
      simp [Engine.stepActor, Supervisor.canStep, Supervisor.step, hstage, hc, workOf]
    rw [hact]
    exact .begin hstage
  | handling serial hp =>
    have hact : e.stepActor now = e.stepWork := by
      simp [Engine.stepActor, Supervisor.canStep, hstage, hc]
    rw [hact]
    exact h.stepWork_turn

theorem with_debouncer (h : e.InService) {d : Debouncer} (hopen : d.phase ≠ .closed)
    (hout : d.phase.outstanding = e.debouncer.phase.outstanding) :
    InService { e with debouncer := d } :=
  { h with
    phase_open := hopen
    load := h.load.trans hout.symm }

theorem request (h : e.InService) : InService e.request.1 := by
  have hphase := e.debouncer.request_phase
  refine h.with_debouncer (d := e.debouncer.request.1) ?_ ?_
  · rw [hphase]
    exact Phase.requested_ne_closed h.phase_open
  · rw [hphase, Phase.outstanding_requested]

theorem with_mailbox (h : e.InService) {b : Mailbox Command}
    (hitems : b.items = e.actor.mailbox.items) (hclosed : b.closed = e.actor.mailbox.closed)
    (herrands : ∀ x ∈ b.errands,
      x ∈ e.actor.mailbox.errands ∨ x = (Supervisor.receiver, .receive)) :
    InService { e with actor := { e.actor with mailbox := b } } :=
  { h with
    mailbox_open := hclosed.trans h.mailbox_open
    errands := by
      intro x hx
      rcases herrands x hx with hx | hx
      · exact h.errands x hx
      · exact Or.inl hx
    passes := by
      rw [hitems]
      exact h.passes
    load := by
      have hl := h.load
      simp only [Engine.load] at hl
      simp only [Engine.load, hitems]
      exact hl }

theorem pump_turn (h : e.InService) {e' : Engine} (ht : PumpTurn e e') : e'.InService := by
  have hl := h.load
  cases ht with
  | rest _ => exact h
  | look _ hphase _ _ =>
    apply h.with_debouncer
    · rw [hphase]
      exact h.phase_open
    · rw [hphase]
  | @take d serial hpump hqueued hphase =>
    simp only [Engine.load, hpump, hqueued, Pump.load, Phase.outstanding] at hl
    refine { h with phase_open := ?_, errands := ?_, load := ?_ }
    · rw [hphase]
      exact Phase.noConfusion
    · intro x hx
      rw [Mailbox.join_errands] at hx
      rcases List.mem_append.1 hx with hx | hx
      · rcases h.errands x hx with hx | ⟨n, hn, -⟩
        · exact Or.inl hx
        · rw [hpump] at hn
          cases hn
      · exact Or.inr ⟨serial, rfl, List.mem_singleton.1 hx⟩
    · simp only [Engine.load, hphase, Pump.load, Phase.outstanding, Mailbox.join_items]
      omega
  | finish _ hclosed _ => exact absurd hclosed h.phase_open
  | wait _ heffect =>
    cases heffect with
    | still hitems hclosed herrands =>
      apply h.with_mailbox hitems hclosed
      intro x hx
      exact Or.inl (herrands ▸ hx)
  | @leave b serial hpump heffect =>
    cases heffect with
    | @sent m hwant _ _ hitems hclosed herrands =>
      obtain ⟨n, hn, hm⟩ := h.pump_errand hwant
      obtain rfl : m = .pass n := Mailbox.Want.send.inj hm
      simp only [Engine.load, hpump, Pump.load] at hl
      refine { h with mailbox_open := ?_, errands := ?_, passes := ?_, load := ?_ }
      · exact hclosed.trans h.mailbox_open
      · intro x hx
        rw [herrands] at hx
        obtain ⟨hx, hne⟩ := List.mem_filter.1 hx
        rcases h.errands x hx with hx | ⟨n, -, rfl⟩
        · exact Or.inl hx
        · simp at hne
      · intro m hm
        rw [hitems] at hm
        rcases List.mem_append.1 hm with hm | hm
        · exact h.passes m hm
        · exact ⟨n, List.mem_singleton.1 hm⟩
      · simp only [Engine.load, hitems, Pump.load, Debouncer.join, List.length_append,
          List.length_singleton]
        omega
  | fail _ houtcome heffect => exact (h.pump_not_refused houtcome heffect).elim

/-- The actor is at another stage, with the same mailbox and as many commands as before. -/
theorem with_actor (h : e.InService) {a : Supervisor Command} {w : Option Work}
    (hsteady : Steady a.stage w) (hload : stageLoad a.stage = stageLoad e.actor.stage)
    (hmailbox : a.mailbox = e.actor.mailbox) (hcancelled : a.cancelled = e.actor.cancelled) :
    InService { e with actor := a, work := w } := by
  have hl := h.load
  simp only [Engine.load] at hl
  refine { h with
    mailbox_open := ?_
    uncancelled := ?_
    errands := ?_
    passes := ?_
    steady := hsteady
    load := ?_ }
  · rw [hmailbox]
    exact h.mailbox_open
  · exact hcancelled.trans h.uncancelled
  · rw [hmailbox]
    exact h.errands
  · rw [hmailbox]
    exact h.passes
  · simp only [Engine.load, hmailbox, hload]
    exact hl

theorem with_idle_actor (h : e.InService) {a : Supervisor Command}
    (hidle : stageLoad e.actor.stage = 0) (hsteady : Steady a.stage none)
    (hload : stageLoad a.stage = 0) (hmailbox : a.mailbox = e.actor.mailbox)
    (hcancelled : a.cancelled = e.actor.cancelled) : InService { e with actor := a } := by
  have hactor := h.with_actor hsteady (hload.trans hidle.symm) hmailbox hcancelled
  rw [← h.work_eq_none hidle] at hactor
  exact hactor

theorem with_work (h : e.InService) {w w' : Work} (hwork : e.work = some w) (hp : w'.IsPass) :
    InService { e with work := some w' } := by
  obtain ⟨-, serial, hstage⟩ := h.work_isPass hwork
  exact { h with
    steady := by
      rw [hstage]
      exact .handling serial hp }

theorem running_of_handling (h : e.InService) {m : Command} (hstage : e.actor.stage = .handling m) :
    ∃ dirty, e.debouncer.phase = .running dirty := by
  have hl := h.load
  simp only [Engine.load, hstage, stageLoad] at hl
  cases hphase : e.debouncer.phase with
  | running dirty => exact ⟨dirty, rfl⟩
  | idle | queued | closed =>
    simp only [hphase, Phase.outstanding] at hl
    omega

theorem completePass (h : e.InService) {n serial changeCount : Nat} {resolution : Resolution}
    {run : Run} (hstage : e.actor.stage = .handling (.pass n)) :
    InService (e.completePass serial changeCount resolution run) := by
  have hl := h.load
  obtain ⟨dirty, hphase⟩ := h.running_of_handling hstage
  have hback := e.debouncer.giveBack_phase serial
  have hactor : e.actor.handled .goOn = { e.actor with stage := .receiving } := by
    simp [Supervisor.handled, hstage]
  simp only [Engine.load, hstage, hphase, stageLoad, Phase.outstanding] at hl
  rw [Engine.completePass]
  simp only [Engine.giveBack, hactor]
  refine { h with phase_open := ?_, steady := ?_, load := ?_ }
  · rw [hback]
    exact Phase.returned_ne_closed h.phase_open
  · exact .receiving
  · simp only [Engine.load, hback, Phase.outstanding_returned, stageLoad]
    omega

theorem actor_turn (h : e.InService) {e' : Engine} (ht : ActorTurn e e') : e'.InService := by
  cases ht with
  | rest => exact h
  | launch hstage => exact h.with_idle_actor (congrArg stageLoad hstage) .spawned rfl rfl rfl
  | spawn hstage => exact h.with_idle_actor (congrArg stageLoad hstage) .starting rfl rfl rfl
  | ready hstage => exact h.with_idle_actor (congrArg stageLoad hstage) .receiving rfl rfl rfl
  | ask _ =>
    refine h.with_mailbox (b := e.actor.mailbox.join Supervisor.receiver .receive) rfl rfl ?_
    intro x hx
    rw [Mailbox.join_errands] at hx
    rcases List.mem_append.1 hx with hx | hx
    · exact Or.inl hx
    · exact Or.inr (List.mem_singleton.1 hx)
  | wait _ heffect =>
    cases heffect with
    | still hitems hclosed herrands =>
      apply h.with_mailbox hitems hclosed
      intro x hx
      exact Or.inl (herrands ▸ hx)
  | @take b m hstage heffect =>
    cases heffect with
    | received _ hitems hclosed herrands =>
      have hl := h.load
      have hwork : e.work = none := h.work_eq_none (congrArg stageLoad hstage)
      obtain ⟨serial, rfl⟩ := h.passes m (hitems ▸ List.mem_cons_self)
      simp only [Engine.load, hstage, hitems, stageLoad, List.length_cons] at hl
      refine { h with mailbox_open := ?_, errands := ?_, passes := ?_, steady := ?_, load := ?_ }
      · exact hclosed.trans h.mailbox_open
      · intro x hx
        rw [herrands] at hx
        exact h.errands x (List.mem_filter.1 hx).1
      · intro m hm
        exact h.passes m (hitems ▸ List.mem_cons_of_mem _ hm)
      · rw [hwork]
        exact .received serial
      · simp only [Engine.load, stageLoad]
        omega
  | @begin serial hstage =>
    apply h.with_actor
    · exact .handling serial trivial
    · rw [hstage]
      rfl
    · rfl
    · rfl
  | readRevision hwork => exact h.with_work hwork trivial
  | readRuntime hwork => exact h.with_work hwork trivial
  | readStore hwork => exact h.with_work hwork trivial
  | complete hstage hwork hcall => exact h.completePass hstage

end InService

/-- Neither a shutdown nor a panic of the container. -/
def Event.IsOrdinary : Event → Prop
  | .explode | .shutdown _ => False
  | _ => True

instance : DecidablePred Event.IsOrdinary := fun ev => by
  cases ev <;> unfold Event.IsOrdinary <;> infer_instance

inductive Turn (e : Engine) : Engine → Prop where
  | rest : Turn e e
  | watch {b : StatusBoard} (hcurrent : b.current = e.board.current)
      (hnotice : b.notice = e.board.notice) : Turn e { e with board := b }
  | write {store : Store} (hstore : store.snapshot = e.store.snapshot) (p : Properties) :
      Turn e { e with store, runtime := e.runtime.store p }
  | change (store : Store) (runtime : Runtime) :
      Turn e ({ e with store, runtime } : Engine).request.1
  | pump {e' : Engine} (h : PumpTurn e e') : Turn e e'
  | actor {e' : Engine} (h : ActorTurn e e') : Turn e e'
  | answer {serial changeCount : Nat} {resolution : Resolution} {run : Run}
      (hwork : e.work = some (.deploying serial changeCount resolution run)) (response : Response) :
      Turn e { e with
        live := (run.answer response).live
        work := some (.deploying serial changeCount resolution (run.answer response)) }

namespace InService

variable {e : Engine}

theorem turn (h : e.InService) {e' : Engine} (ht : Turn e e') : e'.InService := by
  cases ht with
  | rest => exact h
  | watch _ _ => exact { h with }
  | write _ _ => exact { h with }
  | change store runtime =>
    have h' : InService { e with store, runtime } := { h with }
    exact h'.request
  | pump ht => exact h.pump_turn ht
  | actor ht => exact h.actor_turn ht
  | answer hwork response =>
    obtain ⟨-, serial, hstage⟩ := h.work_isPass hwork
    exact { h with
      steady := by
        rw [hstage]
        exact .handling serial trivial }

theorem respond_turn (h : e.InService) (response : Response) : Turn e (e.respond response) := by
  unfold Engine.respond
  split
  · rename_i hwork
    exact .answer hwork response
  · rename_i hwork
    exact absurd (h.work_isPass hwork).1 id
  · exact .rest

theorem mutate_turn (h : e.InService) (m : Mutation) : Turn e (e.mutate m).1 := by
  have hlistening : ({ e with store := (e.store.mutate m).1 } : Engine).listening = true :=
    h.listening
  unfold Engine.mutate
  cases hchange : (e.store.mutate m).2.change with
  | none =>
    simp only [hchange, Option.isSome_none, Bool.false_eq_true, if_false]
    exact .write (Store.mutate_unheard hchange) e.runtime.properties
  | some n =>
    simp only [hchange, Option.isSome_some, if_true]
    rw [Engine.heard, if_pos hlistening]
    exact .change _ e.runtime

theorem next_turn (h : e.InService) {ev : Event} (hev : ev.IsOrdinary) : Turn e (e.next ev) := by
  cases ev with
  | mutate m => exact h.mutate_turn m
  | storeRuntime p => exact .write rfl p
  | advanceRuntime =>
    have hlistening : ({ e with runtime := e.runtime.advance } : Engine).listening = true :=
      h.listening
    rw [Engine.next, Engine.advanceRuntime, Engine.heard, if_pos hlistening]
    exact .change e.store e.runtime.advance
  | request => exact .change e.store e.runtime
  | settled watcher => exact .watch rfl rfl
  | watch watcher =>
    obtain ⟨hcurrent, hnotice, -⟩ := e.board.step_shows watcher
    exact .watch hcurrent hnotice
  | unwatch watcher => exact .watch rfl rfl
  | pump now => exact .pump (e.stepPump_turn now)
  | act now => exact .actor (h.stepActor_turn now)
  | respond response => exact h.respond_turn response
  | explode => exact hev.elim
  | shutdown now => exact hev.elim
  | close now =>
    have hclose : e.next (.close now) = e := by
      simp only [Engine.next, Engine.stepClosing, h.unclosed]
    rw [hclose]
    exact .rest
  | abandonShutdown =>
    have hclose : e.next .abandonShutdown = e := by
      simp only [Engine.next, Engine.abandonShutdown, h.unclosed]
    rw [hclose]
    exact .rest

end InService

end Engine

end Reconciliation
