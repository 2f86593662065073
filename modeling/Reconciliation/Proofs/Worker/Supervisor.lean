import Reconciliation.Proofs.Worker.Delivery
import Reconciliation.Worker.Supervisor

/-! # What an event does to a supervised actor

Policies and waits decide when there is a next generation. Apart from them an event moves at most
one command, and what becomes known with it can be read off the change of stages.
-/
namespace Reconciliation.Supervisor

variable {α : Type}

inductive Mark (α : Type) where
  /-- The mailbox has accepted a command. -/
  | accepted (command : α)
  /-- A generation starts. -/
  | starting
  /-- A handler begins. It ends, be it with a failure, unless it is cut short. -/
  | begun (command : α)
  | ended (command : α)
  /-- A generation exits. -/
  | exited (exit : Exit)
  | cancelled
  deriving DecidableEq, Repr

namespace Mark

def accepted? : Mark α → Option α
  | accepted m => some m
  | _ => none

def begun? : Mark α → Option α
  | begun m => some m
  | _ => none

def ended? : Mark α → Option α
  | ended m => some m
  | _ => none

def isOfHandler : Mark α → Bool
  | begun _ | ended _ => true
  | _ => false

def isBeginning : Mark α → Bool
  | starting | begun _ => true
  | _ => false

end Mark

namespace Stage

def atWork : Stage α → List α
  | handling m => [m]
  | _ => []

/-- The command that has been taken out of the mailbox and is not being handled yet. -/
def inHand : Stage α → List α
  | received m => [m]
  | _ => []

def onEntry : Stage α → List (Mark α)
  | starting => [.starting]
  | handling m => [.begun m]
  | ended e => [.exited e]
  | _ => []

end Stage

def passage [DecidableEq α] (x y : Stage α) : List (Mark α) :=
  if x = y ∨ y = .stopping .cancelled then [] else x.atWork.map .ended ++ y.onEntry

def marks [DecidableEq α] (s : Supervisor α) (e : Event α) : List (Mark α) :=
  (match e with
    | .mailbox e => ((s.mailbox.answer? e).bind Mailbox.Answer.accepted?).toList.map .accepted
    | .cancel => [.cancelled]
    | _ => []) ++ passage s.stage (s.next e).stage

def after (s : Supervisor α) (events : List (Event α)) : Supervisor α :=
  events.foldl next s

def log [DecidableEq α] (s : Supervisor α) (events : List (Event α)) : List (Mark α) :=
  history next marks s events

theorem after_concat (s : Supervisor α) (events : List (Event α)) (e : Event α) :
    s.after (events ++ [e]) = (s.after events).next e := by
  simp [after]

theorem log_concat [DecidableEq α] (s : Supervisor α) (events : List (Event α)) (e : Event α) :
    s.log (events ++ [e]) = s.log events ++ (s.after events).marks e :=
  history_concat next marks s events e

/-- Nobody but the generations receives. Others send, under other numbers. -/
def Event.SparesReceiver : Event α → Prop
  | .mailbox (.join c (.send _)) | .mailbox (.step c) | .mailbox (.leave c) => c ≠ receiver
  | .mailbox (.join _ .receive) => False
  | _ => True

def Peopled (b : Mailbox α) : Prop :=
  ∀ x ∈ b.errands, x.2 = .receive ↔ x.1 = receiver

theorem Peopled.subset {b b' : Mailbox α} (h : Peopled b) (hsub : b'.errands ⊆ b.errands) :
    Peopled b' :=
  fun x hx => h x (hsub hx)

theorem Peopled.want? {b : Mailbox α} (h : Peopled b) {c : Nat} {w : Mailbox.Want α}
    (hw : b.want? c = some w) : w = .receive ↔ c = receiver :=
  h (c, w) (b.mem_errands_of_want? c hw)

theorem Peopled.received_eq_none {b : Mailbox α} (h : Peopled b) {e : Mailbox.Event α}
    (he : (Event.mailbox e).SparesReceiver) :
    (b.answer? e).bind Mailbox.Answer.received? = none := by
  cases e with
  | trySend m => rfl
  | join c w => rfl
  | leave c => rfl
  | close => rfl
  | step c =>
    have heffect := b.step_effect c
    simp only [Mailbox.answer?]
    generalize (b.step c).1 = b', (b.step c).2 = o at heffect
    cases heffect with
    | received hwant _ _ _ => exact absurd ((h.want? hwant).1 rfl) he
    | still _ _ _ => simp
    | sent hwant _ _ _ _ _ => simp [hwant, Mailbox.Answer.received?]
    | refused hwant _ _ _ _ => simp [hwant, Mailbox.Answer.received?]
    | drained hwant _ _ _ _ _ => simp [hwant, Mailbox.Answer.received?]

theorem Peopled.leave {b : Mailbox α} (h : Peopled b) (c : Nat) : Peopled (b.leave c) := by
  apply h.subset
  rw [Mailbox.leave_errands]
  exact List.filter_sublist.subset

theorem Peopled.join {b : Mailbox α} (h : Peopled b) {c : Nat} {w : Mailbox.Want α}
    (hw : w = .receive ↔ c = receiver) : Peopled (b.join c w) := by
  intro x hx
  rw [Mailbox.join_errands] at hx
  rcases List.mem_append.1 hx with hx | hx
  · exact h x hx
  · obtain rfl := List.mem_singleton.1 hx
    exact hw

theorem Peopled.next {b : Mailbox α} (h : Peopled b) {e : Mailbox.Event α}
    (he : (Event.mailbox e).SparesReceiver) : Peopled (b.next e) := by
  cases e with
  | trySend m =>
    cases ho : b.obstacle with
    | some o => rwa [Mailbox.next, Mailbox.trySend_of_obstacle ho]
    | none =>
      rw [Mailbox.next, Mailbox.trySend_of_no_obstacle ho]
      exact h
  | join c w =>
    apply h.join
    cases w with
    | send m => exact iff_of_false (fun hw => by cases hw) he
    | receive => exact he.elim
  | step c => exact h.subset (b.step_errands_subset c)
  | leave c => exact h.leave c
  | close => exact h

structure Lasts (s s' : Supervisor α) : Prop where
  cancelled : s.cancelled = true → s'.cancelled = true
  closed : s.mailbox.closed = true → s'.mailbox.closed = true
  peopled : Peopled s.mailbox → Peopled s'.mailbox

/-- What it takes for a stage without a command to come next. -/
def Admits (s : Supervisor α) : Stage α → Prop
  | .starting => s.cancelled = false
  | .stopping .mailboxClosed =>
    s.cancelled = false ∧ s.mailbox.closed = true ∧ s.mailbox.items = []
  | .ended .mailboxClosed => s.stage = .stopping .mailboxClosed
  | .received _ | .handling _ => False
  | _ => True

inductive Turn (s s' : Supervisor α) : List (Mark α) → Prop where
  | mail {m : Option α} (hopen : m ≠ none → s.mailbox.closed = false)
      (hitems : s'.mailbox.items = s.mailbox.items ++ m.toList) (hstage : s'.stage = s.stage) :
      Turn s s' (m.toList.map .accepted)
  | cancel (hcancelled : s'.cancelled = true) (hitems : s'.mailbox.items = s.mailbox.items)
      (hstage : s'.stage = s.stage) : Turn s s' [.cancelled]
  | take {m : α} (hlive : s.cancelled = false) (hstage : s.stage = .receiving)
      (hitems : s.mailbox.items = m :: s'.mailbox.items) (hto : s'.stage = .received m) :
      Turn s s' []
  | begin {m : α} (hlive : s.cancelled = false) (hstage : s.stage = .received m)
      (hitems : s'.mailbox.items = s.mailbox.items) (hto : s'.stage = .handling m) :
      Turn s s' [.begun m]
  | drop {m : α} (hcancelled : s.cancelled = true) (hstage : s.stage = .received m)
      (hitems : s'.mailbox.items = s.mailbox.items) (hto : s'.stage = .stopping .cancelled) :
      Turn s s' []
  | cut {m : α} (hcancelled : s.cancelled = true) (hstage : s.stage = .handling m)
      (hitems : s'.mailbox.items = s.mailbox.items) (hto : s'.stage = .stopping .cancelled) :
      Turn s s' []
  | finish {m : α} (hstage : s.stage = .handling m)
      (hitems : s'.mailbox.items = s.mailbox.items) (hto : s.Admits s'.stage) :
      Turn s s' (.ended m :: s'.stage.onEntry)
  | move (hatWork : s.stage.atWork = []) (hinHand : s.stage.inHand = [])
      (hitems : s'.mailbox.items = s.mailbox.items) (hto : s.Admits s'.stage) :
      Turn s s' s'.stage.onEntry

section turn

variable {s s' : Supervisor α}

theorem Lasts.of_mailbox_eq (hcancelled : s'.cancelled = s.cancelled)
    (hmailbox : s'.mailbox = s.mailbox) : Lasts s s' := by
  constructor
  · rw [hcancelled]
    exact id
  · rw [hmailbox]
    exact id
  · rw [hmailbox]
    exact id

theorem cut_lasts (s : Supervisor α) : Lasts s s.cut := by
  refine ⟨id, ?_, fun h => h.leave receiver⟩
  intro h
  rwa [cut, Mailbox.leave_closed]

theorem Turn.of_stage_eq (hitems : s'.mailbox.items = s.mailbox.items)
    (hstage : s'.stage = s.stage) : Turn s s' [] := by
  have hmail : s'.mailbox.items = s.mailbox.items ++ (none : Option α).toList :=
    hitems.trans (List.append_nil _).symm
  exact .mail (fun h => absurd rfl h) hmail hstage

theorem notice_eq (s : Supervisor α) (now : Nat) (e : Exit) : ∃ n x,
    s.notice now e = { s with lastExit := some e, restarts := n, stage := x } ∧
      (x = .finished ∨ ∃ due, x = .backingOff due) := by
  unfold notice
  dsimp only
  split
  · exact ⟨_, _, rfl, Or.inl rfl⟩
  · split
    · exact ⟨_, _, rfl, Or.inl rfl⟩
    · exact ⟨_, _, rfl, Or.inr ⟨_, rfl⟩⟩

variable [DecidableEq α]

theorem passage_self (x : Stage α) : passage x x = [] :=
  if_pos (Or.inl rfl)

theorem still (s : Supervisor α) : Lasts s s ∧ Turn s s (passage s.stage s.stage) := by
  rw [passage_self]
  exact ⟨.of_mailbox_eq rfl rfl, .of_stage_eq rfl rfl⟩

theorem Turn.of_move (hatWork : s.stage.atWork = []) (hinHand : s.stage.inHand = [])
    (hitems : s'.mailbox.items = s.mailbox.items) (hto : s.Admits s'.stage) :
    Turn s s' (passage s.stage s'.stage) := by
  have hmove : Turn s s' s'.stage.onEntry := .move hatWork hinHand hitems hto
  unfold passage
  split
  · next hstage =>
    rcases hstage with hstage | hstage
    · exact .of_stage_eq hitems hstage.symm
    · rwa [hstage] at hmove
  · rwa [hatWork]

theorem Turn.of_finish {m : α} (hstage : s.stage = .handling m)
    (hitems : s'.mailbox.items = s.mailbox.items) (hto : s.Admits s'.stage)
    (hends : s'.stage ≠ .stopping .cancelled) : Turn s s' (passage s.stage s'.stage) := by
  have hne : s.stage ≠ s'.stage := by
    intro h
    rw [← h, hstage] at hto
    exact hto
  have hpassage : passage s.stage s'.stage = .ended m :: s'.stage.onEntry := by
    rw [passage, if_neg (not_or.2 ⟨hne, hends⟩), hstage]
    rfl
  rw [hpassage]
  exact .finish hstage hitems hto

theorem moves (hcancelled : s'.cancelled = s.cancelled) (hmailbox : s'.mailbox = s.mailbox)
    (hatWork : s.stage.atWork = []) (hinHand : s.stage.inHand = []) (hto : s.Admits s'.stage) :
    Lasts s s' ∧ Turn s s' (passage s.stage s'.stage) :=
  ⟨.of_mailbox_eq hcancelled hmailbox,
    .of_move hatWork hinHand (congrArg Mailbox.items hmailbox) hto⟩

theorem receive_turn (hpeopled : Peopled s.mailbox) (hstage : s.stage = .receiving)
    (hlive : s.cancelled = false) :
    Lasts s s.receive ∧ Turn s s.receive (passage s.stage s.receive.stage) := by
  have hatWork : s.stage.atWork = [] := by rw [hstage]; rfl
  have hinHand : s.stage.inHand = [] := by rw [hstage]; rfl
  have hreceiving : s.Admits s.stage := by rw [hstage]; trivial
  unfold receive
  by_cases hcaller : (s.mailbox.caller? receiver).isNone = true
  · rw [if_pos hcaller]
    refine ⟨⟨id, id, fun h => h.join (iff_of_true rfl rfl)⟩, ?_⟩
    exact .of_move hatWork hinHand rfl hreceiving
  · rw [if_neg hcaller]
    have heffect := s.mailbox.step_effect receiver
    have herrands := s.mailbox.step_errands_subset receiver
    generalize hstep : s.mailbox.step receiver = r at heffect herrands
    obtain ⟨b, o⟩ := r
    have hlasts (hclosed : b.closed = s.mailbox.closed) (x : Stage α) :
        Lasts s { s with mailbox := b, stage := x } :=
      ⟨id, hclosed.trans, fun h => h.subset herrands⟩
    cases heffect with
    | still hitems hclosed _ =>
      exact ⟨hlasts hclosed _, .of_move hatWork hinHand hitems hreceiving⟩
    | received _ hitems hclosed _ =>
      refine ⟨hlasts hclosed _, ?_⟩
      rw [hstage]
      exact .take hlive hstage hitems rfl
    | drained _ hshut hempty hitems hclosed _ =>
      refine ⟨hlasts hclosed _, ?_⟩
      exact .of_move hatWork hinHand (hitems.trans hempty.symm) ⟨hlive, hshut, hempty⟩
    | sent hwant _ _ _ _ _ => cases (hpeopled.want? hwant).2 rfl
    | refused hwant _ _ _ _ => cases (hpeopled.want? hwant).2 rfl

theorem step_turn (hpeopled : Peopled s.mailbox) (now : Nat) :
    Lasts s (s.step now).1 ∧ Turn s (s.step now).1 (passage s.stage (s.step now).1.stage) := by
  obtain ⟨policy, b, cancelled, generation, restarts, lastExit, stage⟩ := s
  cases stage with
  | launching => cases cancelled <;> exact moves rfl rfl rfl rfl trivial
  | spawned =>
    cases cancelled with
    | true => exact moves rfl rfl rfl rfl trivial
    | false => exact moves rfl rfl rfl rfl rfl
  | starting =>
    cases cancelled with
    | true => exact moves rfl rfl rfl rfl trivial
    | false => exact moves rfl rfl rfl rfl rfl
  | receiving =>
    cases cancelled with
    | true => exact ⟨cut_lasts _, .of_move rfl rfl (b.leave_items receiver) trivial⟩
    | false => exact receive_turn hpeopled rfl rfl
  | received m =>
    cases cancelled with
    | true => exact ⟨cut_lasts _, .drop rfl rfl (b.leave_items receiver) rfl⟩
    | false => exact ⟨.of_mailbox_eq rfl rfl, .begin rfl rfl rfl rfl⟩
  | handling m =>
    cases cancelled with
    | true => exact ⟨cut_lasts _, .cut rfl rfl (b.leave_items receiver) rfl⟩
    | false => exact still _
  | stopping e => cases e <;> exact moves rfl rfl rfl rfl (by trivial)
  | ended e =>
    obtain ⟨n, x, hnotice, hto⟩ :=
      notice_eq ⟨policy, b, cancelled, generation, restarts, lastExit, .ended e⟩ now e
    simp only [step, hnotice]
    rcases hto with rfl | ⟨due, rfl⟩
    · exact moves rfl rfl rfl rfl trivial
    · exact moves rfl rfl rfl rfl trivial
  | backingOff due =>
    cases cancelled with
    | true => exact moves rfl rfl rfl rfl trivial
    | false =>
      by_cases hdue : due ≤ now
      · simp only [step, hdue, Bool.false_eq_true, if_true, if_false]
        exact moves rfl rfl rfl rfl trivial
      · simp only [step, hdue, Bool.false_eq_true, if_false]
        exact still _
  | finished => exact still _

theorem crash_turn (s : Supervisor α) :
    Lasts s s.crash ∧ Turn s s.crash (passage s.stage s.crash.stage) := by
  obtain ⟨policy, b, cancelled, generation, restarts, lastExit, stage⟩ := s
  cases stage with
  | launching =>
    cases cancelled with
    | true => exact still _
    | false => exact moves rfl rfl rfl rfl trivial
  | spawned | starting | receiving | received m | handling m
  | stopping e | ended e | backingOff due | finished => exact still _

theorem started_turn (s : Supervisor α) (r : Started) :
    Lasts s (s.started r) ∧ Turn s (s.started r) (passage s.stage (s.started r).stage) := by
  obtain ⟨policy, b, cancelled, generation, restarts, lastExit, stage⟩ := s
  cases stage with
  | starting => cases r <;> exact moves rfl rfl rfl rfl trivial
  | launching | spawned | receiving | received m | handling m
  | stopping e | ended e | backingOff due | finished => exact still _

theorem handled_turn (s : Supervisor α) (r : Handled) :
    Lasts s (s.handled r) ∧ Turn s (s.handled r) (passage s.stage (s.handled r).stage) := by
  obtain ⟨policy, b, cancelled, generation, restarts, lastExit, stage⟩ := s
  cases stage with
  | handling m =>
    cases r <;> exact ⟨.of_mailbox_eq rfl rfl, .of_finish rfl rfl trivial nofun⟩
  | launching | spawned | starting | receiving | received m
  | stopping e | ended e | backingOff due | finished => exact still _

theorem next_turn (hpeopled : Peopled s.mailbox) {e : Event α} (he : e.SparesReceiver) :
    Lasts s (s.next e) ∧ Turn s (s.next e) (s.marks e) := by
  cases e with
  | step now => exact step_turn hpeopled now
  | crash => exact s.crash_turn
  | started r => exact s.started_turn r
  | handled r => exact s.handled_turn r
  | close =>
    refine ⟨⟨id, fun _ => rfl, fun h => h.next (e := .close) trivial⟩, ?_⟩
    have hmarks : s.marks .close = [] := passage_self s.stage
    rw [hmarks]
    exact .of_stage_eq rfl rfl
  | cancel =>
    refine ⟨⟨fun _ => rfl, fun _ => rfl, fun h => h.next (e := .close) trivial⟩, ?_⟩
    have hmarks : s.marks .cancel = [.cancelled] :=
      congrArg (List.cons Mark.cancelled) (passage_self s.stage)
    rw [hmarks]
    exact .cancel rfl rfl rfl
  | mailbox e =>
    refine ⟨⟨id, fun h => Mailbox.next_closed h e, fun h => h.next he⟩, ?_⟩
    have hmarks : s.marks (.mailbox e) =
        ((s.mailbox.answer? e).bind Mailbox.Answer.accepted?).toList.map .accepted :=
      (congrArg (List.append _) (passage_self s.stage)).trans (List.append_nil _)
    have hitems := s.mailbox.next_items e
    rw [hpeopled.received_eq_none he, Option.toList_none, List.nil_append] at hitems
    rw [hmarks]
    refine .mail ?_ hitems rfl
    intro hsome
    obtain ⟨m, hm⟩ := Option.ne_none_iff_exists'.1 hsome
    exact (Mailbox.room_of_accepted hm).1

end turn

end Reconciliation.Supervisor
