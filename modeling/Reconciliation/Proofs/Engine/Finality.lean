import Reconciliation.Proofs.Engine.Handover

/-! # What a shutdown leaves behind

A shutdown is final. No ticket is issued any more, and the pass that has been ticketed comes before
the teardown. Once everything has been taken down it stays so, whatever is called.
-/
namespace Reconciliation

namespace Supervisor

variable {α : Type} [DecidableEq α]

/-- The commands that begin to be handled when one stage gives way to another. -/
def begun (x y : Stage α) : List α :=
  (passage x y).filterMap Mark.begun?

theorem begun_self (x : Stage α) : begun x x = [] := by
  rw [begun, passage_self]
  rfl

theorem begun_of_idle {x y : Stage α} (h : y.atWork = []) : begun x y = [] := by
  unfold begun passage
  split
  · rfl
  · cases x <;> cases y <;> first | rfl | cases h

theorem begun_of_received (m : α) : begun (.received m) (.handling m) = [m] := by
  have hgoes : ¬ (Stage.received m = .handling m ∨ Stage.handling m = .stopping .cancelled) := by
    simp
  rw [begun, passage, if_neg hgoes]
  rfl

/-- What is being handled was being handled before, or has just been begun. -/
theorem atWork_sublist (x y : Stage α) : List.Sublist y.atWork (x.atWork ++ begun x y) := by
  by_cases hxy : x = y
  · rw [hxy]
    exact List.sublist_append_left _ _
  · cases y with
    | handling m =>
      have hstays : Stage.handling m ≠ .stopping .cancelled := by simp
      have hbegun : begun x (.handling m) = [m] := by
        rw [begun, passage, if_neg (not_or.2 ⟨hxy, hstays⟩)]
        cases x <;> rfl
      rw [hbegun]
      exact List.sublist_append_right _ _
    | launching | spawned | starting | receiving | received _ | stopping _ | ended _ | backingOff _
    | finished => exact List.nil_sublist _

end Supervisor

namespace Engine

def beginnings (e : Engine) (events : List Event) : List Command :=
  history next (fun e ev => Supervisor.begun e.actor.stage (e.next ev).actor.stage) e events

def Closing.unsent : Closing → List Command
  | .sending _ => [.shutdown]
  | _ => []

def ahead (e : Engine) : List Command :=
  e.actor.waiting ++ e.closing.unsent

structure Shut (e : Engine) : Prop where
  closed : e.closed = true
  ticket : e.pump.ticket? = none

theorem Closing.PastSending.unsent {c : Closing} (h : c.PastSending) : c.unsent = [] := by
  cases c with
  | «open» | sending _ => exact h.elim
  | awaiting _ | joining _ | handedOver | patient | forcing | «over» => rfl

namespace Shut

variable {e e' : Engine} {ev : Event}

theorem not_sending (h : e.Shut) {serial : Nat} : e.pump ≠ .sending serial := by
  intro hpump
  have hticket := h.ticket
  rw [hpump] at hticket
  cases hticket

theorem pump_turn (h : e.Shut) (hs : e.Sound) (ht : PumpTurn e e') :
    e'.pump.ticket? = none ∧ e'.actor = e.actor ∧ e'.closing = e.closing := by
  cases ht with
  | rest _ => exact ⟨h.ticket, rfl, rfl⟩
  | look _ _ _ _ => exact ⟨h.ticket, rfl, rfl⟩
  | take _ hqueued _ _ _ _ => cases hqueued.symm.trans (hs.shut h.closed)
  | finish _ _ _ _ _ => exact ⟨rfl, rfl, rfl⟩
  | wait hpump _ => exact absurd hpump h.not_sending
  | leave hpump _ => exact absurd hpump h.not_sending
  | fail hpump _ _ => exact absurd hpump h.not_sending

theorem move (h : e.Shut) (hs : e.Sound) (hm : Move e ev e') : e'.Shut := by
  cases hm.flow_turn with
  | shutdown _ hopen _ => cases h.closed.symm.trans hopen
  | pump _ ht hclosed => exact ⟨hclosed.trans h.closed, (h.pump_turn hs ht).1⟩
  | stay hpump hclosed => exact ⟨hclosed.trans h.closed, hpump ▸ h.ticket⟩

end Shut

theorem ahead_of_quiet {e e' : Engine} (hbegun : Supervisor.begun e.actor.stage e'.actor.stage = [])
    (hwaiting : List.Sublist e'.actor.waiting e.actor.waiting)
    (hunsent : e'.closing.unsent = e.closing.unsent) :
    List.Sublist (Supervisor.begun e.actor.stage e'.actor.stage ++ e'.ahead) e.ahead := by
  rw [hbegun, ahead, ahead, hunsent]
  exact hwaiting.append (List.Sublist.refl _)

theorem ahead_of_actor {e e' : Engine} (hactor : e'.actor = e.actor)
    (hclosing : e'.closing = e.closing) :
    List.Sublist (Supervisor.begun e.actor.stage e'.actor.stage ++ e'.ahead) e.ahead := by
  refine ahead_of_quiet ?_ ?_ ?_
  · rw [hactor, Supervisor.begun_self]
  · rw [hactor]
  · rw [hclosing]

theorem waiting_of_idle {a : Supervisor Command} (hidle : stageLoad a.stage = 0) :
    a.waiting = a.mailbox.items := by
  unfold Supervisor.waiting
  cases hstage : a.stage <;> rw [hstage] at hidle <;> first | rfl | cases hidle

theorem atWork_of_idle {x : Supervisor.Stage Command} (hidle : stageLoad x = 0) : x.atWork = [] := by
  cases x <;> first | rfl | cases hidle

/-- The actor comes to a stage without a command, and the mailbox is as it was. -/
theorem ahead_of_idle {e e' : Engine} (hto : stageLoad e'.actor.stage = 0)
    (hitems : e'.actor.mailbox.items = e.actor.mailbox.items) (hclosing : e'.closing = e.closing) :
    List.Sublist (Supervisor.begun e.actor.stage e'.actor.stage ++ e'.ahead) e.ahead := by
  refine ahead_of_quiet (Supervisor.begun_of_idle (atWork_of_idle hto)) ?_ (by rw [hclosing])
  rw [waiting_of_idle hto, hitems]
  exact List.sublist_append_right _ _

theorem ahead_of_begin {e e' : Engine} {m : Command} (hfrom : e.actor.stage = .received m)
    (hto : e'.actor.stage = .handling m)
    (hitems : e'.actor.mailbox.items = e.actor.mailbox.items) (hclosing : e'.closing = e.closing) :
    List.Sublist (Supervisor.begun e.actor.stage e'.actor.stage ++ e'.ahead) e.ahead := by
  rw [ahead, ahead, Supervisor.waiting, Supervisor.waiting, hfrom, hto, hitems, hclosing,
    Supervisor.begun_of_received]
  exact List.Sublist.refl _

theorem ahead_of_turn {e e' : Engine} (hs : e.Sound) (ht : ActorTurn e e') :
    List.Sublist (Supervisor.begun e.actor.stage e'.actor.stage ++ e'.ahead) e.ahead := by
  cases ht with
  | rest | readRevision _ | readRuntime _ | readStore _ => exact ahead_of_actor rfl rfl
  | launch _ | spawn _ | ready _ => exact ahead_of_idle rfl rfl rfl
  | ask hstage => exact ahead_of_idle (congrArg stageLoad hstage) rfl rfl
  | wait hstage heffect =>
    cases heffect with
    | still hitems _ _ => exact ahead_of_idle (congrArg stageLoad hstage) hitems rfl
  | take hstage heffect =>
    cases heffect with
    | received _ hitems _ _ =>
      refine ahead_of_quiet (Supervisor.begun_of_idle rfl) ?_ rfl
      rw [waiting_of_idle (congrArg stageLoad hstage), hitems]
      exact List.Sublist.refl _
  | begin hstage => exact ahead_of_begin hstage rfl rfl rfl
  | complete _ hwork _ =>
    have hactor : e.actor.handled .goOn = { e.actor with stage := .receiving } := by
      simp [Supervisor.handled, hs.handling_pass hwork rfl]
    refine ahead_of_idle ?_ ?_ rfl
    · exact congrArg (stageLoad ·.stage) hactor
    · exact congrArg (·.mailbox.items) hactor

theorem Shut.ahead_move {e e' : Engine} {ev : Event} (h : e.Shut) (hs : e.Sound)
    (hm : Move e ev e') :
    List.Sublist (Supervisor.begun e.actor.stage e'.actor.stage ++ e'.ahead) e.ahead := by
  cases hm with
  | rest | watch _ _ _ _ | write _ _ | change _ _ | answer _ _ | answerTeardown _ _ =>
    exact ahead_of_actor rfl rfl
  | pump ht _ =>
    obtain ⟨-, hactor, hclosing⟩ := h.pump_turn hs ht
    exact ahead_of_actor hactor hclosing
  | actor hm =>
    cases hm with
    | turn ht => exact ahead_of_turn hs ht
    | idle _ hto hitems _ _ _ => exact ahead_of_idle hto hitems rfl
    | @cut m _ _ =>
      have hitems := e.actor.mailbox.leave_items Supervisor.receiver
      cases m <;> exact ahead_of_idle rfl hitems rfl
    | beginTeardown hstage => exact ahead_of_begin hstage rfl rfl rfl
    | unpublish _ => exact ahead_of_actor rfl rfl
    | endTeardown _ _ => exact ahead_of_idle rfl rfl rfl
  | @explode m _ _ => cases m <;> exact ahead_of_idle rfl rfl rfl
  | shutdown _ hopen => cases h.closed.symm.trans hopen
  | @post b _ hclosing heffect =>
    cases heffect with
    | still hitems _ _ =>
      refine ahead_of_quiet (Supervisor.begun_self _) ?_ rfl
      rw [Supervisor.waiting, Supervisor.waiting, hitems]
  | @posted b _ hclosing heffect =>
    cases heffect with
    | sent hwant _ _ hitems _ _ =>
      obtain rfl := Mailbox.Want.send.inj (hs.closer_errand hwant)
      rw [Supervisor.begun_self, ahead, ahead, Supervisor.waiting, Supervisor.waiting, hitems,
        hclosing]
      simp [Closing.unsent]
  | @close a j c _ hpast _ hstage hitems _ =>
    have hbegun : Supervisor.begun e.actor.stage a.stage = [] := by
      rw [hstage, Supervisor.begun_self]
    have hwaiting : a.waiting = e.actor.waiting := by
      rw [Supervisor.waiting, Supervisor.waiting, hstage, hitems]
    rw [hbegun, ahead, ahead, hwaiting, hpast.unsent, List.append_nil]
    exact List.sublist_append_left _ _

theorem Shut.after {e : Engine} (h : e.Shut) (hs : e.Sound) (events : List Event) :
    (e.after events).Shut := by
  induction events generalizing e with
  | nil => exact h
  | cons ev events ih => exact ih (h.move hs (hs.next_move ev)) (hs.next ev)

theorem Shut.beginnings_sublist {e : Engine} (h : e.Shut) (hs : e.Sound) (events : List Event) :
    List.Sublist (e.beginnings events ++ (e.after events).ahead) e.ahead := by
  induction events generalizing e with
  | nil => exact List.Sublist.refl _
  | cons ev events ih =>
    have hm := hs.next_move ev
    have hrest := ih (h.move hs hm) (hs.next ev)
    have hstep := h.ahead_move hs hm
    rw [beginnings, history, List.append_assoc]
    exact ((List.Sublist.refl _).append hrest).trans hstep

/-- What is being handled was being handled when these events came, or began with them. -/
theorem atWork_after_sublist (e : Engine) (events : List Event) :
    List.Sublist (e.after events).actor.stage.atWork
      (e.actor.stage.atWork ++ e.beginnings events) := by
  induction events generalizing e with
  | nil => exact List.sublist_append_left _ _
  | cons ev events ih =>
    have hstep := Supervisor.atWork_sublist e.actor.stage (e.next ev).actor.stage
    rw [beginnings, history, ← List.append_assoc]
    exact (ih (e.next ev)).trans (hstep.append (List.Sublist.refl _))

theorem answer_forgets (run : Run) (response : Response) :
    (run.answer response).forgets = run.forgets := by
  unfold Run.answer
  split
  · rfl
  · split <;> rfl

structure Clears (e : Engine) : Prop where
  tearing : ∀ run, e.work = some (.tearingDown run) → run.forgets = true ∧ e.board.IsBlank
  given : ∀ report, e.reply = .given report → e.live = .empty ∧ e.board.IsBlank

/-- Once the report of the teardown has been given, there is no work any more. -/
theorem Sound.work_of_given {e : Engine} (h : e.Sound) {report : Report}
    (hreply : e.reply = .given report) : e.work = none := by
  apply h.work_of_idle
  have hover := h.given report hreply
  cases hstage : e.actor.stage <;> rw [hstage] at hover <;> first | rfl | exact hover.elim

theorem Sound.reply_of_work {e : Engine} (h : e.Sound) {w : Work} (hwork : e.work = some w) {P : Prop} :
    ∀ report, e.reply = .given report → P := by
  intro report hreply
  cases hwork.symm.trans (h.work_of_given hreply)

theorem Clears.move {e e' : Engine} {ev : Event} (h : e.Clears) (hs : e.Sound) (hm : Move e ev e') :
    e'.Clears := by
  cases hm with
  | rest | write _ _ | change _ _ | shutdown _ _ | post _ _ | posted _ _
  | close _ _ _ _ _ _ => exact ⟨h.tearing, h.given⟩
  | watch hcurrent hnotice _ _ =>
    have hblank (hb : e.board.IsBlank) := hb.of_eq hcurrent hnotice
    exact ⟨fun run hwork => (h.tearing run hwork).imp_right hblank,
      fun report hreply => (h.given report hreply).imp_right hblank⟩
  | pump ht _ => cases ht <;> exact ⟨h.tearing, h.given⟩
  | actor hm =>
    cases hm with
    | turn ht =>
      cases ht with
      | rest | launch _ | spawn _ | ready _ | ask _ | wait _ _ | take _ _ =>
        exact ⟨h.tearing, h.given⟩
      | begin _ | readRevision _ | readRuntime _ | readStore _ => exact ⟨nofun, h.given⟩
      | complete _ hwork _ => exact ⟨nofun, hs.reply_of_work hwork⟩
    | idle _ _ _ _ _ _ => exact ⟨h.tearing, h.given⟩
    | @cut m _ _ =>
      cases m with
      | pass _ => exact ⟨nofun, h.given⟩
      | shutdown => exact ⟨nofun, nofun⟩
    | beginTeardown _ => exact ⟨nofun, h.given⟩
    | unpublish hwork =>
      refine ⟨?_, hs.reply_of_work hwork⟩
      rintro run ⟨⟩
      exact ⟨rfl, rfl, rfl⟩
    | endTeardown hwork _ =>
      obtain ⟨hforgets, hblank⟩ := h.tearing _ hwork
      exact ⟨nofun, fun _ _ => ⟨if_pos hforgets, hblank⟩⟩
  | answer hwork _ => exact ⟨nofun, hs.reply_of_work hwork⟩
  | @answerTeardown run hwork response =>
    obtain ⟨hforgets, hblank⟩ := h.tearing run hwork
    refine ⟨?_, hs.reply_of_work hwork⟩
    rintro run' ⟨⟩
    exact ⟨(answer_forgets run response).trans hforgets, hblank⟩
  | @explode m _ _ =>
    cases m with
    | pass _ => exact ⟨nofun, h.given⟩
    | shutdown => exact ⟨nofun, nofun⟩

theorem Clears.after {e : Engine} (h : e.Clears) (hs : e.Sound) (events : List Event) :
    (e.after events).Clears := by
  induction events generalizing e with
  | nil => exact h
  | cons ev events ih => exact ih (h.move hs (hs.next_move ev)) (hs.next ev)

theorem Sound.given_move {e e' : Engine} {ev : Event} (h : e.Sound) (hm : Move e ev e')
    {report : Report} (hreply : e.reply = .given report) : e'.reply = .given report := by
  have hover := h.given report hreply
  have hnone := h.work_of_given hreply
  have hidle {m : Command} {P : Prop}
      (hstage : e.actor.stage = .received m ∨ e.actor.stage = .handling m) : P := by
    rcases hstage with hstage | hstage <;> rw [hstage] at hover <;> exact hover.elim
  cases hm with
  | rest | watch _ _ _ _ | write _ _ | change _ _ | shutdown _ _ | post _ _ | posted _ _
  | close _ _ _ _ _ _ | answer _ _ | answerTeardown _ _ => exact hreply
  | pump ht _ => cases ht <;> exact hreply
  | actor hm =>
    cases hm with
    | turn ht => cases ht <;> exact hreply
    | idle _ _ _ _ _ _ | beginTeardown _ | unpublish _ => exact hreply
    | cut _ hstage => exact hidle hstage
    | endTeardown hwork _ => cases hnone.symm.trans hwork
  | explode _ hstage => exact hidle (Or.inr hstage)

theorem Sound.given_quiet {e e' : Engine} {ev : Event} (h : e.Sound) (hm : Move e ev e')
    {report : Report} (hreply : e.reply = .given report) :
    Supervisor.begun e.actor.stage e'.actor.stage = [] ∧ published e e' = [] := by
  constructor
  · have hover := (h.move hm).given report (h.given_move hm hreply)
    apply Supervisor.begun_of_idle
    cases hstage : e'.actor.stage <;> rw [hstage] at hover <;> first | rfl | exact hover.elim
  · rcases h.published_eq hm with hquiet | ⟨_, _, _, _, hwork, -⟩
    · exact hquiet
    · cases hwork.symm.trans (h.work_of_given hreply)

theorem Sound.given_after {e : Engine} (h : e.Sound) {report : Report}
    (hreply : e.reply = .given report) (events : List Event) :
    (e.after events).reply = .given report ∧ e.beginnings events = [] ∧
      e.publications events = [] := by
  induction events generalizing e with
  | nil => exact ⟨hreply, rfl, rfl⟩
  | cons ev events ih =>
    have hm := h.next_move ev
    obtain ⟨hbegun, hpublished⟩ := h.given_quiet hm hreply
    obtain ⟨hafter, hbegins, hpublishes⟩ := ih (h.next ev) (h.given_move hm hreply)
    refine ⟨hafter, ?_, ?_⟩
    · rw [beginnings, history, hbegun]
      exact hbegins
    · rw [publications, history, hpublished]
      exact hpublishes

theorem Sound.given_of_done {e : Engine} (h : e.Sound) {now : Nat} {report : Report}
    (hdone : (e.stepClosing now).2 = some (.done report)) : e.reply = .given report := by
  unfold stepClosing at hdone
  split at hdone
  · cases hdone
  · cases hdone
  · split at hdone
    · split at hdone <;> cases hdone
    · split at hdone <;> cases hdone
  · split at hdone
    · cases hdone
    · cases hdone
    · split at hdone <;> cases hdone
  · rename_i given hclosing
    split at hdone
    · cases hdone
    · cases hdone
      exact h.joining _ hclosing
  · cases hdone
  · split at hdone <;> cases hdone
  · split at hdone <;> cases hdone

/-- The teardown is over, or the caller of the shutdown is about to be told so. -/
def HasShutDown (e : Engine) : Prop :=
  (∃ report, e.reply = .given report) ∨ ∃ now report, (e.stepClosing now).2 = some (.done report)

structure IsDown (e : Engine) : Prop where
  call : e.call? = none
  live : e.live = .empty
  board : e.board.IsBlank

structure ShutsDown (e : Engine) : Prop where
  /-- No ticket is issued any more. -/
  issued : ∀ later, (e.after later).debouncer.issued = e.debouncer.issued
  /-- At most one is out, -/
  held : e.debouncer.held.length ≤ 1
  /-- and what is being handled and what is still begun is its pass and then the shutdown, at most. -/
  begun : ∀ later, List.Sublist (e.actor.stage.atWork ++ e.beginnings later)
    (e.debouncer.held.map .pass ++ [.shutdown])
  /-- While everything is taken down, there is no pass under way. -/
  apart : ∀ later, (e.after later).actor.stage = .handling .shutdown →
    (e.after later).debouncer.held = []
  /-- Further calls of shutdown are refused, and have no effect. -/
  refused : ∀ later now, (e.after later).shutdown now = (e.after later, some .shutDown)
  /-- When the shutdown has been handled, or its caller told so, everything is down and stays so. -/
  down : ∀ past later, (e.after past).HasShutDown → (e.after (past ++ later)).IsDown ∧
    (e.after past).publications later = [] ∧ (e.after past).beginnings later = []

theorem map_pass_serials {l : List Command} (h : .shutdown ∉ l) :
    (l.filterMap Command.serial?).map .pass = l := by
  induction l with
  | nil => rfl
  | cons m l ih =>
    cases m with
    | shutdown => exact absurd List.mem_cons_self h
    | pass serial =>
      have hrest := ih fun hm => h (List.mem_cons_of_mem _ hm)
      simp [Command.serial?, hrest]

theorem Shut.issued_eq {e : Engine} (h : e.Shut) (hs : e.Sound) (later : List Event) :
    (e.after later).debouncer.issued = e.debouncer.issued := by
  induction later using List.reverseRecOn with
  | nil => rfl
  | append_singleton later ev ih =>
    refine Eq.trans ?_ ih
    have hclosed := (hs.after later).shut (h.after hs later).closed
    have hturn := (after_move hs later ev).pass_turn
    generalize e.after (later ++ [ev]) = e' at hturn
    cases hturn with
    | @complete serial _ _ _ _ => exact ((e.after later).debouncer.giveBack_tickets serial).1
    | issue _ hqueued _ _ _ => cases hqueued.symm.trans hclosed
    | lose _ hissued _ _ _ => exact hissued
    | stay _ hissued _ _ _ => exact hissued

theorem Shut.refused {e : Engine} (h : e.Shut) (now : Nat) :
    e.shutdown now = (e, some .shutDown) :=
  if_pos h.closed

theorem Clears.isDown {e : Engine} (h : e.Clears) (hs : e.Sound) {report : Report}
    (hreply : e.reply = .given report) : e.IsDown := by
  obtain ⟨hlive, hblank⟩ := h.given report hreply
  refine ⟨?_, hlive, hblank⟩
  rw [call?, hs.work_of_given hreply]

theorem Sound.given_of_hasShutDown {e : Engine} (h : e.Sound) (hdone : e.HasShutDown) :
    ∃ report, e.reply = .given report := by
  rcases hdone with hgiven | ⟨now, report, hdone⟩
  · exact hgiven
  · exact ⟨report, h.given_of_done hdone⟩

theorem eq_nil_of_cons_sublist {m : Command} {l passes : List Command}
    (h : List.Sublist (m :: l) (passes ++ [m])) (hm : m ∉ passes) : l = [] := by
  obtain ⟨l₁, l₂, hl, h₁, h₂⟩ := List.sublist_append_iff.1 h
  cases l₁ with
  | nil =>
    rw [List.nil_append] at hl
    subst hl
    exact List.length_eq_zero_iff.1 (by simpa using h₂.length_le)
  | cons x l₁ =>
    obtain ⟨rfl, -⟩ := List.cons.inj hl
    exact absurd (h₁.subset List.mem_cons_self) hm

namespace Shut

variable {e : Engine} (h : e.Shut) (hs : e.Sound)
include h hs

theorem serials_eq : e.actor.orders.filterMap Command.serial? = e.debouncer.held := by
  rw [← hs.carried, Engine.carried, h.ticket]
  exact (List.append_nil _).symm

/-- When the shutdown has just been called, all that there is to do is the pass that has been
ticketed, and then the shutdown. -/
theorem agenda_eq {deadline : Nat} (hclosing : e.closing = .sending deadline) :
    e.actor.stage.atWork ++ e.ahead = e.debouncer.held.map .pass ++ [.shutdown] := by
  have horders : e.debouncer.held.map .pass = e.actor.orders := by
    rw [← h.serials_eq hs]
    exact map_pass_serials (hs.unsent (Or.inr ⟨deadline, hclosing⟩))
  rw [horders, ahead, hclosing, Supervisor.orders, List.append_assoc]
  rfl

theorem agenda_sublist {deadline : Nat} (hclosing : e.closing = .sending deadline)
    (later : List Event) :
    List.Sublist (e.actor.stage.atWork ++ e.beginnings later ++ (e.after later).ahead)
      (e.debouncer.held.map .pass ++ [.shutdown]) := by
  rw [← h.agenda_eq hs hclosing, List.append_assoc]
  exact (List.Sublist.refl _).append (h.beginnings_sublist hs later)

theorem apart {deadline : Nat} (hclosing : e.closing = .sending deadline) {later : List Event}
    (hstage : (e.after later).actor.stage = .handling .shutdown) :
    (e.after later).debouncer.held = [] := by
  have hwork := atWork_after_sublist e later
  rw [hstage] at hwork
  have hall := (hwork.append (List.Sublist.refl _)).trans (h.agenda_sublist hs hclosing later)
  have hnone : (e.after later).ahead = [] := by
    refine eq_nil_of_cons_sublist hall ?_
    intro hm
    obtain ⟨_, -, hpass⟩ := List.mem_map.1 hm
    cases hpass
  have hitems : (e.after later).actor.mailbox.items = [] :=
    (List.append_eq_nil_iff.1 (List.append_eq_nil_iff.1 hnone).1).2
  rw [← (h.after hs later).serials_eq (hs.after later),
    Supervisor.orders_of_taken (Or.inr hstage), hitems]
  rfl

theorem shutsDown (hclears : e.Clears) {deadline : Nat} (hclosing : e.closing = .sending deadline) :
    e.ShutsDown where
  issued := h.issued_eq hs
  held := hs.held_length_le
  begun later := (List.sublist_append_left _ _).trans (h.agenda_sublist hs hclosing later)
  apart _ := h.apart hs hclosing
  refused later := (h.after hs later).refused
  down past later hdone := by
    have hpast := hs.after past
    obtain ⟨report, hreply⟩ := hpast.given_of_hasShutDown hdone
    obtain ⟨hgiven, hbegins, hpublishes⟩ := hpast.given_after hreply later
    refine ⟨?_, hpublishes, hbegins⟩
    rw [after_append]
    exact ((hclears.after hs past).after hpast later).isDown (hpast.after later) hgiven

end Shut

theorem after_closed {e : Engine} (h : e.Sound) (hopen : e.closed = false) {events : List Event}
    (hfirst : ∀ now, .shutdown now ∉ events) : (e.after events).closed = false := by
  induction events generalizing e with
  | nil => exact hopen
  | cons ev events ih =>
    refine ih (h.next ev) ?_ fun now hm => hfirst now (List.mem_cons_of_mem _ hm)
    cases (h.next_move ev).flow_turn with
    | @shutdown now hev _ _ => exact absurd (hev ▸ List.mem_cons_self) (hfirst now)
    | pump _ _ hclosed => exact hclosed.trans hopen
    | stay _ hclosed => exact hclosed.trans hopen

theorem launched_shuts_down {config : Config} {store : Store} {executor : Bool} {e : Engine}
    (h : launch config store executor = .ok e) {past : List Event} {now : Nat}
    (hfirst : ∀ now, .shutdown now ∉ past) (hcooperative : e.Cooperative (past ++ [.shutdown now])) :
    (e.after (past ++ [.shutdown now])).ShutsDown := by
  obtain ⟨config, rfl⟩ := launch_eq_ok h
  have hsound := (Sound.start config store).after past
  have hopen := after_closed (.start config store) rfl hfirst
  have hticket := (start_unhindered config store past).ticket_eq_none rfl
    (follows_concat.1 hcooperative).2
  have hstart : (start config store).Clears := ⟨nofun, nofun⟩
  have hclears := hstart.after (.start config store) past
  rw [after_concat]
  generalize (start config store).after past = e at hsound hopen hticket hclears
  have hs := hsound.next (.shutdown now)
  have hc := hclears.move hsound (hsound.next_move (.shutdown now))
  have hnext : e.next (.shutdown now) = { e with
      closed := true
      listening := false
      debouncer := e.debouncer.close
      closing := .sending (e.lastMoment now)
      actor := { e.actor with mailbox := e.actor.mailbox.join closerId (.send .shutdown) } } := by
    simp [next, shutdown, hopen]
  rw [hnext] at hs hc ⊢
  exact Shut.shutsDown ⟨rfl, hticket⟩ hs hc rfl

def ticketed : List Event :=
  [.pump 0, .pump 50, .pump 50, .pump 50]

/-- The pass panics in the container, and the teardown is left to the next generation. -/
def panicThenTeardown : List Event :=
  [.close 50, .close 50] ++ List.replicate 10 (.act 50) ++ [.explode, .act 50] ++
    List.replicate 11 (.act 60)

theorem ticketed_shuts_down : ∃ e, launch .default (.empty 0) true = .ok e ∧
    (∀ now, .shutdown now ∉ ticketed) ∧ e.Cooperative (ticketed ++ [.shutdown 50]) ∧
    (e.after (ticketed ++ [.shutdown 50])).ShutsDown ∧
    (e.after (ticketed ++ [.shutdown 50])).beginnings panicThenTeardown = [.pass 1, .shutdown] ∧
    ((e.after (ticketed ++ [.shutdown 50])).after panicThenTeardown).HasShutDown := by
  have hlaunch : launch .default (.empty 0) true = .ok (start .default (.empty 0)) := rfl
  have hfirst : ∀ now, .shutdown now ∉ ticketed := by
    intro now hm
    simp [ticketed] at hm
  have hcooperative : (start .default (.empty 0)).Cooperative (ticketed ++ [.shutdown 50]) := by
    decide +kernel
  have hbegun : ((start .default (.empty 0)).after (ticketed ++ [.shutdown 50])).beginnings
      panicThenTeardown = [.pass 1, .shutdown] := by
    decide +kernel
  have hreply : (((start .default (.empty 0)).after (ticketed ++ [.shutdown 50])).after
      panicThenTeardown).reply = .given .empty := by
    decide +kernel
  exact ⟨_, hlaunch, hfirst, hcooperative, launched_shuts_down hlaunch hfirst hcooperative, hbegun,
    Or.inl ⟨_, hreply⟩⟩

end Engine

end Reconciliation
