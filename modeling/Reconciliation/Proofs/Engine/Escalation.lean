import Reconciliation.Proofs.Engine.Closing
import Reconciliation.Proofs.Engine.Teardown
import Reconciliation.Proofs.Worker.JoinControl

/-! # How a shutdown goes on without its caller

A shutdown that takes too long goes on in the background, and is forced only when another timeout
has passed.
-/
namespace Reconciliation.Engine

def Closing.Sent : Closing → Prop
  | .awaiting _ | .joining _ | .handedOver | .patient | .forcing => True
  | .open | .sending _ | .over => False

/-- The teardown is still to come or under way, or it has been done. -/
def Owes (e : Engine) : Prop :=
  .shutdown ∈ e.actor.orders ∨ ∃ report, e.reply = .given report

/-- Every order that there was is still there, and nothing has been told. -/
theorem Owes.of_subset {e e' : Engine} (h : e.Owes) (horders : e.actor.orders ⊆ e'.actor.orders)
    (hreply : e'.reply = e.reply) : e'.Owes := by
  rw [Owes, hreply]
  exact h.imp_left fun hm => horders hm

theorem Owes.of_eq {e e' : Engine} (h : e.Owes) (horders : e'.actor.orders = e.actor.orders)
    (hreply : e'.reply = e.reply) : e'.Owes :=
  h.of_subset (horders ▸ List.Subset.refl _) hreply

/-- Whatever comes to the mailbox or goes from it otherwise, the orders in it count. -/
theorem orders_subset (a : Supervisor Command) {b : Mailbox Command}
    (hitems : a.mailbox.items ⊆ b.items) :
    a.orders ⊆ ({ a with mailbox := b } : Supervisor Command).orders := by
  intro m hm
  simp only [Supervisor.orders, Supervisor.waiting, List.mem_append] at hm ⊢
  exact hm.imp_right (Or.imp_right fun hm => hitems hm)

theorem orders_of_receive {a b : Supervisor Command} {m : Command} (hfrom : stageLoad a.stage = 0)
    (hto : b.stage = .received m) (hitems : a.mailbox.items = m :: b.mailbox.items) :
    b.orders = a.orders := by
  rw [Supervisor.orders_of_taken (Or.inl hto), Sound.orders_of_idle hfrom, hitems]

theorem orders_of_begin {a b : Supervisor Command} {m : Command} (hfrom : a.stage = .received m)
    (hto : b.stage = .handling m) (hitems : b.mailbox.items = a.mailbox.items) :
    b.orders = a.orders := by
  rw [Supervisor.orders_of_taken (Or.inr hto), Supervisor.orders_of_taken (Or.inl hfrom), hitems]

theorem orders_of_aside {a b : Supervisor Command} (hfrom : stageLoad a.stage = 0)
    (hto : stageLoad b.stage = 0) (hitems : b.mailbox.items = a.mailbox.items) :
    b.orders = a.orders := by
  rw [Sound.orders_of_idle hfrom, Sound.orders_of_idle hto, hitems]

theorem Owes.pump_turn {e e' : Engine} (h : e.Owes) (hs : e.Sound) (ht : PumpTurn e e') : e'.Owes := by
  have hmailbox {b : Mailbox Command} (hitems : e.actor.mailbox.items ⊆ b.items) :
      e.actor.orders ⊆ ({ e.actor with mailbox := b } : Supervisor Command).orders :=
    orders_subset e.actor hitems
  cases ht with
  | rest _ | look _ _ _ _ | take _ _ _ _ _ _ | finish _ _ _ _ _ => exact h
  | wait _ heffect =>
    cases heffect with
    | still hitems _ _ => exact h.of_subset (hmailbox fun _ hm => hitems ▸ hm) rfl
  | leave _ heffect =>
    cases heffect with
    | sent _ _ _ hitems _ _ =>
      exact h.of_subset (hmailbox (hitems ▸ List.subset_append_left _ _)) rfl
  | fail _ houtcome heffect =>
    cases heffect with
    | sent _ _ _ _ _ _ => exact absurd rfl houtcome
    | refused _ _ hitems _ _ => exact h.of_subset (hmailbox fun _ hm => hitems ▸ hm) rfl
    | received hwant _ _ _ =>
      obtain ⟨n, -, hm⟩ := hs.pump_errand hwant
      cases hm
    | drained hwant _ _ _ _ _ =>
      obtain ⟨n, -, hm⟩ := hs.pump_errand hwant
      cases hm

theorem Owes.actor_move {e e' : Engine} (h : e.Owes)
    (hcancelled : e.actor.cancelled = false) (hm : ActorMove e e') : e'.Owes := by
  cases hm with
  | turn ht =>
    cases ht with
    | rest | readRevision _ | readRuntime _ | readStore _ => exact h
    | ask _ => exact h.of_subset (orders_subset e.actor (List.Subset.refl _)) rfl
    | launch hstage | spawn hstage | ready hstage =>
      exact h.of_eq (orders_of_aside (congrArg stageLoad hstage) rfl rfl) rfl
    | wait _ heffect =>
      cases heffect with
      | still hitems _ _ =>
        exact h.of_subset (orders_subset e.actor fun _ hm => hitems ▸ hm) rfl
    | take hstage heffect =>
      cases heffect with
      | received _ hitems _ _ =>
        exact h.of_eq (orders_of_receive (congrArg stageLoad hstage) rfl hitems) rfl
    | begin hstage =>
      exact h.of_eq (orders_of_begin hstage rfl rfl) rfl
    | @complete n serial changeCount resolution run hstage _ _ =>
      have hactor : (e.completePass serial changeCount resolution run).actor =
          { e.actor with stage := .receiving } := by
        simp [completePass, giveBack, Supervisor.handled, hstage]
      have hne : Command.shutdown ≠ .pass n := by simp
      refine h.imp_left fun hm => ?_
      rw [Supervisor.orders_of_taken (Or.inr hstage)] at hm
      rw [hactor, Sound.orders_of_idle rfl]
      exact (List.mem_cons.1 hm).resolve_left hne
  | idle hfrom hto hitems _ _ _ _ _ =>
    exact h.of_eq (orders_of_aside hfrom hto hitems) rfl
  | cut hcut _ => cases hcancelled.symm.trans hcut
  | beginTeardown hstage =>
    exact h.of_eq (orders_of_begin hstage rfl rfl) rfl
  | unpublish _ => exact h
  | endTeardown _ _ => exact Or.inr ⟨_, rfl⟩

theorem Owes.move {e e' : Engine} (h : e.Owes) (hs : e.Sound)
    (hcancelled : e.actor.cancelled = false) {ev : Event} (hev : ev ≠ .explode)
    (hm : Move e ev e') : e'.Owes := by
  cases hm with
  | rest | watch _ _ _ _ | write _ _ | change _ _ | answer _ _ | answerTeardown _ _ => exact h
  | pump ht _ => exact h.pump_turn hs ht
  | actor hm => exact h.actor_move hcancelled hm
  | explode hexplode _ => exact absurd hexplode hev
  | shutdown _ _ => exact h.of_subset (orders_subset e.actor (List.Subset.refl _)) rfl
  | post _ heffect =>
    cases heffect with
    | still hitems _ _ =>
      exact h.of_subset (orders_subset e.actor fun _ hm => hitems ▸ hm) rfl
  | posted _ heffect =>
    cases heffect with
    | sent _ _ _ hitems _ _ =>
      exact h.of_subset (orders_subset e.actor (hitems ▸ List.subset_append_left _ _)) rfl
  | @close a _ _ _ _ _ hstage hitems _ =>
    have horders : a.orders = e.actor.orders := by
      rw [Supervisor.orders, Supervisor.orders, Supervisor.waiting, Supervisor.waiting, hstage,
        hitems]
    exact h.of_eq horders rfl

structure Dutiful (e : Engine) : Prop where
  uncancelled : e.actor.cancelled = false
  sent : e.closing.Sent → e.Owes
  shut : e.actor.mailbox.closed = true → e.Owes
  exited : HasExited e.actor.stage → ∃ report, e.reply = .given report

namespace Dutiful

variable {e e' : Engine} {ev : Event}

theorem exited_actor_move (h : e.Dutiful) (hm : ActorMove e e') (hexit : HasExited e'.actor.stage) :
    ∃ report, e'.reply = .given report := by
  cases hm with
  | turn ht =>
    cases ht with
    | rest | ask _ | wait _ _ | readRevision _ | readRuntime _ | readStore _ => exact h.exited hexit
    | launch _ | spawn _ | ready _ | take _ _ | begin _ => exact hexit.elim
    | @complete n serial changeCount resolution run hstage _ _ =>
      have hactor : (e.completePass serial changeCount resolution run).actor =
          { e.actor with stage := .receiving } := by
        simp [completePass, giveBack, Supervisor.handled, hstage]
      rw [hactor] at hexit
      exact hexit.elim
  | idle hfrom _ _ _ _ _ _ hexits =>
    rcases hexits hexit with hexit | hcancelled | ⟨hshut, hempty⟩
    · exact h.exited hexit
    · cases h.uncancelled.symm.trans hcancelled
    · refine (h.shut hshut).resolve_left ?_
      rw [Sound.orders_of_idle hfrom, hempty]
      exact List.not_mem_nil
  | cut hcut _ => cases h.uncancelled.symm.trans hcut
  | beginTeardown _ => exact hexit.elim
  | unpublish _ => exact h.exited hexit
  | endTeardown _ _ => exact ⟨_, rfl⟩

theorem exited_move (h : e.Dutiful) (hev : ev ≠ .explode) (hm : Move e ev e')
    (hexit : HasExited e'.actor.stage) : ∃ report, e'.reply = .given report := by
  cases hm with
  | rest | watch _ _ _ _ | write _ _ | change _ _ | answer _ _ | answerTeardown _ _ | shutdown _ _
  | post _ _ | posted _ _ => exact h.exited hexit
  | pump ht _ => cases ht <;> exact h.exited hexit
  | actor hm => exact h.exited_actor_move hm hexit
  | explode hexplode _ => exact absurd hexplode hev
  | close _ _ _ hstage _ _ => exact h.exited (hstage ▸ hexit)

/-- A step of the shutdown takes no notice of an actor that has something to do, unless it cancels. -/
theorem close_turn (h : e.Dutiful) (hs : e.Sound) (hsends : e.Sends) {now : Nat}
    {r : Engine × Option Farewell} (ht : ClosingTurn e now r) : r.1.actor.cancelled = true ∨
      r.1.actor.cancelled = false ∧ (r.1.closing.Sent → e.Owes ∨ r.1.Owes) ∧
        (r.1.actor.mailbox.closed = true → e.Owes) := by
  have heffect := e.actor.mailbox.step_effect closerId
  cases ht with
  | rest | look _ _ => exact Or.inr ⟨h.uncancelled, fun hsent => Or.inl (h.sent hsent), h.shut⟩
  | post hclosing hstep =>
    rw [hstep] at heffect
    cases heffect with
    | still _ hclosed _ =>
      exact Or.inr ⟨h.uncancelled, fun hsent => Or.inl (h.sent hsent), fun hshut =>
        h.shut (hclosed.symm.trans hshut)⟩
  | posted hclosing hstep =>
    rw [hstep] at heffect
    cases heffect with
    | sent hwant _ _ hitems hclosed _ =>
      obtain rfl := Mailbox.Want.send.inj (hs.closer_errand hwant)
      refine Or.inr ⟨h.uncancelled, fun _ => Or.inr (Or.inl ?_), fun hshut =>
        h.shut (hclosed.symm.trans hshut)⟩
      simp only [Supervisor.orders, Supervisor.waiting, List.mem_append]
      exact Or.inr (Or.inr (hitems ▸ List.mem_append_right _ List.mem_cons_self))
  | refused hclosing hstep =>
    rw [hstep] at heffect
    refine Or.inr ⟨h.uncancelled, False.elim, fun hshut => h.shut ?_⟩
    cases heffect with
    | sent _ _ _ _ hclosed _ | refused _ _ _ hclosed _ | received _ _ hclosed _
    | drained _ _ _ _ hclosed _ => exact hclosed.symm.trans hshut
  | timeOut hclosing =>
    refine Or.inr ⟨h.uncancelled, fun _ => Or.inl ?_, fun hshut => h.shut ?_⟩
    · rcases hclosing with ⟨deadline, hclosing⟩ | ⟨⟨deadline, hclosing⟩, hcan⟩
      · exact h.sent (hclosing ▸ trivial)
      · cases (hsends deadline hclosing).canStep.symm.trans hcan
    · exact (Mailbox.leave_closed _ _).symm.trans hshut
  | await hclosing | goOn hclosing =>
    have howes := h.sent (hclosing ▸ trivial)
    exact Or.inr ⟨h.uncancelled, fun _ => Or.inl howes, fun _ => howes⟩
  | lose | leave => exact Or.inr ⟨h.uncancelled, False.elim, h.shut⟩
  | force _ _ => exact Or.inl rfl

theorem next (h : e.Dutiful) (hs : e.Sound) (hsends : e.Sends) (hev : ev ≠ .explode) :
    (e.next ev).Dutiful ∨ (e.next ev).actor.cancelled = true := by
  have hm := hs.next_move ev
  have howes : e.Owes → (e.next ev).Owes := fun howes => howes.move hs h.uncancelled hev hm
  have hexited := h.exited_move hev hm
  cases hshutdown : ev.isOfShutdown with
  | false =>
    obtain ⟨hclosing, -, hcancelled, hclosed⟩ := hs.next_closing hshutdown
    refine Or.inl ⟨hcancelled.trans h.uncancelled, fun hsent => howes (h.sent (hclosing ▸ hsent)),
      fun hshut => howes (h.shut (hclosed.symm.trans hshut)), hexited⟩
  | true =>
    cases ev with
    | shutdown now =>
      cases hclosed : e.closed with
      | true =>
        have hsame : e.next (.shutdown now) = e := by simp [Engine.next, Engine.shutdown, hclosed]
        rw [hsame]
        exact Or.inl h
      | false =>
        have hshut : (e.next (.shutdown now)).closing = .sending (e.lastMoment now) ∧
            (e.next (.shutdown now)).actor.mailbox.closed = e.actor.mailbox.closed ∧
            (e.next (.shutdown now)).actor.cancelled = e.actor.cancelled := by
          simp [Engine.next, Engine.shutdown, hclosed, Mailbox.join]
        obtain ⟨hclosing, hmailbox, hcancelled⟩ := hshut
        refine Or.inl ⟨hcancelled.trans h.uncancelled, ?_, fun hshut =>
          howes (h.shut (hmailbox.symm.trans hshut)), hexited⟩
        rw [hclosing]
        exact False.elim
    | close now =>
      rcases h.close_turn hs hsends (e.stepClosing_turn now) with hcancelled | ⟨hlive, hsent, hshut⟩
      · exact Or.inr hcancelled
      · exact Or.inl ⟨hlive, fun hc => (hsent hc).elim howes id, fun hc => howes (hshut hc), hexited⟩
    | abandonShutdown =>
      rw [Engine.next] at howes hexited ⊢
      rcases e.abandonShutdown_turn with hsame | ⟨hover, hcancelled, hclosed⟩
      · rw [hsame]
        exact Or.inl h
      · refine Or.inl ⟨hcancelled.trans h.uncancelled, ?_, fun hshut =>
          howes (h.shut (hclosed.symm.trans hshut)), hexited⟩
        rw [hover]
        exact False.elim
    | mutate _ | storeRuntime _ | advanceRuntime | request | settled _ | watch _ | unwatch _
    | pump _ | act _ | respond _ | explode => cases hshutdown

end Dutiful

theorem Sound.cancelled_next {e : Engine} (hs : e.Sound) (ev : Event)
    (h : e.actor.cancelled = true) : (e.next ev).actor.cancelled = true := by
  cases hshutdown : ev.isOfShutdown with
  | false => exact (hs.next_closing hshutdown).cancelled.trans h
  | true =>
    cases ev with
    | shutdown now =>
      rw [Engine.next, Engine.shutdown]
      split <;> exact h
    | close now =>
      rw [Engine.next]
      have ht := e.stepClosing_turn now
      generalize e.stepClosing now = r at ht
      cases ht with
      | force _ _ => rfl
      | rest | post _ _ | posted _ _ | refused _ _ | timeOut _ | await _ | lose | goOn _
      | look _ _ | leave => exact h
    | abandonShutdown =>
      rw [Engine.next]
      rcases e.abandonShutdown_turn with hsame | ⟨-, hcancelled, -⟩
      · rwa [hsame]
      · exact hcancelled.trans h
    | mutate _ | storeRuntime _ | advanceRuntime | request | settled _ | watch _ | unwatch _
    | pump _ | act _ | respond _ | explode => cases hshutdown

theorem Move.config_eq {e e' : Engine} {ev : Event} (hm : Move e ev e') : e'.config = e.config := by
  cases hm with
  | rest | watch _ _ _ _ | write _ _ | change _ _ | answer _ _ | answerTeardown _ _ | shutdown _ _
  | post _ _ | posted _ _ | close _ _ _ _ _ _ => rfl
  | pump ht _ => cases ht <;> rfl
  | actor hm =>
    cases hm with
    | turn ht => cases ht <;> rfl
    | idle _ _ _ _ _ _ | beginTeardown _ | unpublish _ | endTeardown _ _ => rfl
    | @cut m _ _ => cases m <;> rfl
  | @explode m _ _ => cases m <;> rfl

theorem Sound.config_after {e : Engine} (h : e.Sound) (events : List Event) :
    (e.after events).config = e.config := by
  induction events generalizing e with
  | nil => rfl
  | cons ev events ih => exact (ih (h.next ev)).trans (h.next_move ev).config_eq

def WasTold (e : Engine) (events : List Event) : Prop :=
  ∃ past now, past ++ [.close now] <+: events ∧
    ((e.after past).stepClosing now).2 = some (.timedOut e.config.shutdownTimeout)

/-- The background gives up. It has begun to wait after the caller had been told, it has waited for
a whole timeout, and the teardown is still not over. -/
structure GivesUp (e : Engine) (events past later : List Event) (since now : Nat) : Prop where
  told : e.WasTold past
  handed : (e.after past).closing = .handedOver
  begun : past ++ [.close since] <+: later
  patient : (e.after later).closing = .patient
  late : since + Clock.span e.config.shutdownTimeout ≤ now
  unfinished : ∀ report, (e.after later).reply ≠ .given report
  given : later ++ [.close now] <+: events

def Escalates (e : Engine) (events : List Event) : Prop :=
  ∃ past later since now, e.GivesUp events past later since now

def MayCancel (e : Engine) (events : List Event) : Prop :=
  (∃ report, (e.after events).reply = .given report) ∨ e.Escalates events

theorem WasTold.mono {e : Engine} {events later : List Event} (h : e.WasTold events)
    (hp : events <+: later) : e.WasTold later := by
  obtain ⟨past, now, hpast, htold⟩ := h
  exact ⟨past, now, hpast.trans hp, htold⟩

theorem MayCancel.concat {e : Engine} (hs : e.Sound) {events : List Event} (h : e.MayCancel events)
    (ev : Event) : e.MayCancel (events ++ [ev]) := by
  rcases h with ⟨report, hreply⟩ | ⟨past, later, since, now, h⟩
  · exact Or.inl ⟨report, (hs.after events).given_move (after_move hs events ev) hreply⟩
  · exact Or.inr ⟨past, later, since, now,
      { h with given := h.given.trans (List.prefix_append events [ev]) }⟩

structure Patience (e : Engine) (events : List Event) : Prop where
  early : (e.after events).closing.IsEarly → (e.after events).join.callers = []
  handed : (e.after events).closing = .handedOver → e.WasTold events
  patient : (e.after events).closing = .patient → ∃ past since, e.WasTold past ∧
    (e.after past).closing = .handedOver ∧ past ++ [.close since] <+: events ∧
      (e.after events).join.WaitsUntil closerId (since + Clock.span e.config.shutdownTimeout)
        (e.MayCancel events)
  cancelled : (e.after events).actor.cancelled = true → e.MayCancel events

namespace Patience

variable {e : Engine} {events : List Event}

theorem stay (h : e.Patience events) (hs : e.Sound) (ev : Event)
    (hsame : SameClosing (e.after events) (e.after (events ++ [ev]))) :
    e.Patience (events ++ [ev]) := by
  have hp := List.prefix_append events [ev]
  constructor
  · rw [hsame.closing, hsame.join]
    exact h.early
  · rw [hsame.closing]
    exact fun hclosing => (h.handed hclosing).mono hp
  · rw [hsame.closing, hsame.join]
    intro hclosing
    obtain ⟨past, since, htold, hhanded, hbegun, hwaits⟩ := h.patient hclosing
    exact ⟨past, since, htold, hhanded, hbegun.trans hp, hwaits.mono fun hmay => hmay.concat hs ev⟩
  · rw [hsame.cancelled]
    exact fun hcancelled => (h.cancelled hcancelled).concat hs ev

/-- The shutdown has come further, but not to where it waits in the background. -/
theorem pass (h : e.Patience events) (hs : e.Sound) (ev : Event)
    (hearly : (e.after (events ++ [ev])).closing.IsEarly →
      (e.after (events ++ [ev])).join.callers = [])
    (hhanded : (e.after (events ++ [ev])).closing ≠ .handedOver)
    (hpatient : (e.after (events ++ [ev])).closing ≠ .patient)
    (hcancelled : (e.after (events ++ [ev])).actor.cancelled = (e.after events).actor.cancelled) :
    e.Patience (events ++ [ev]) := by
  refine ⟨hearly, fun hc => absurd hc hhanded, fun hc => absurd hc hpatient, ?_⟩
  rw [hcancelled]
  exact fun hc => (h.cancelled hc).concat hs ev

theorem mayCancel_of_late (hs : e.Sound)
    (hpatient : (e.after events).closing = .patient) {past : List Event} {since now : Nat}
    (htold : e.WasTold past) (hhanded : (e.after past).closing = .handedOver)
    (hbegun : past ++ [.close since] <+: events)
    (hlate : e.MayCancel events ∨ since + Clock.span e.config.shutdownTimeout ≤ now) :
    e.MayCancel (events ++ [.close now]) := by
  rcases hlate with hmay | hlate
  · exact hmay.concat hs _
  · by_cases hgiven : ∃ report, (e.after events).reply = .given report
    · exact MayCancel.concat hs (Or.inl hgiven) _
    · exact Or.inr ⟨past, events, since, now, htold, hhanded, hbegun, hpatient, hlate,
        not_exists.1 hgiven, List.prefix_refl _⟩

theorem close (h : e.Patience events) (hs : e.Sound) (now : Nat) :
    e.Patience (events ++ [.close now]) := by
  have hconfig := hs.config_after events
  have hafter : e.after (events ++ [.close now]) = ((e.after events).stepClosing now).1 :=
    after_concat e events _
  have hpass := h.pass hs (.close now)
  have hstay := h.stay hs (.close now)
  have ht := (e.after events).stepClosing_turn now
  generalize hr : (e.after events).stepClosing now = r at ht hafter
  rw [hafter] at hpass hstay
  cases ht with
  | rest => exact hstay ⟨rfl, rfl, rfl, rfl⟩
  | post hclosing hstep =>
    have heffect := (e.after events).actor.mailbox.step_effect closerId
    rw [hstep] at heffect
    cases heffect with
    | still _ hclosed _ => exact hstay ⟨rfl, rfl, rfl, hclosed⟩
  | posted hclosing _ =>
    exact hpass (fun _ => h.early (hclosing ▸ trivial)) nofun nofun rfl
  | refused _ _ | await _ | lose | leave => exact hpass nofun nofun nofun rfl
  | timeOut hclosing =>
    have hearly : (e.after events).closing.IsEarly := by
      rcases hclosing with ⟨deadline, hc⟩ | ⟨⟨deadline, hc⟩, -⟩ <;> rw [hc] <;> trivial
    refine ⟨?_, ?_, ?_, ?_⟩
    · rw [hafter]
      exact fun _ => h.early hearly
    · intro _
      refine ⟨events, now, List.prefix_refl _, ?_⟩
      rw [hr, Engine.timeOut, hconfig]
    · rw [hafter]
      exact nofun
    · rw [hafter]
      exact fun hc => (h.cancelled hc).concat hs _
  | goOn hclosing =>
    have hnobody := h.early (hclosing ▸ trivial)
    refine ⟨?_, ?_, ?_, ?_⟩
    · rw [hafter]
      exact nofun
    · rw [hafter]
      exact nofun
    · intro _
      refine ⟨events, now, h.handed hclosing, hclosing, List.prefix_refl _, ?_⟩
      rw [hafter, ← hconfig]
      exact .join hnobody _ _
    · rw [hafter]
      exact fun hc => (h.cancelled hc).concat hs _
  | look hlate hstep =>
    refine ⟨?_, ?_, ?_, ?_⟩
    · rw [hafter]
      exact fun hearly => absurd hearly hlate
    · rw [hafter]
      exact fun hc => absurd (hc ▸ trivial) hlate
    · intro hc
      rw [hafter] at hc ⊢
      obtain ⟨past, since, htold, hhanded, hbegun, hwaits⟩ := h.patient hc
      have hwaits := (hwaits.step (e.after events).actor.isFinished now).1
      rw [hstep] at hwaits
      refine ⟨past, since, htold, hhanded, hbegun.trans (List.prefix_append events _),
        (hwaits rfl).mono ?_⟩
      exact mayCancel_of_late hs hc htold hhanded hbegun
    · rw [hafter]
      exact fun hc => (h.cancelled hc).concat hs _
  | force hclosing hstep =>
    obtain ⟨past, since, htold, hhanded, hbegun, hwaits⟩ := h.patient hclosing
    have hlate := (hwaits.step (e.after events).actor.isFinished now).2
    rw [hstep] at hlate
    refine ⟨?_, ?_, ?_, fun _ => mayCancel_of_late hs hclosing htold hhanded hbegun (hlate rfl)⟩ <;>
      rw [hafter] <;> exact nofun

theorem concat (h : e.Patience events) (hs : e.Sound) (ev : Event) :
    e.Patience (events ++ [ev]) := by
  have hafter := after_concat e events ev
  cases hshutdown : ev.isOfShutdown with
  | false =>
    refine h.stay hs ev ?_
    rw [hafter]
    exact (hs.after events).next_closing hshutdown
  | true =>
    cases ev with
    | shutdown now =>
      rw [Engine.next, Engine.shutdown] at hafter
      cases hclosed : (e.after events).closed with
      | true =>
        rw [if_pos hclosed] at hafter
        exact h.stay hs _ (by rw [hafter]; exact ⟨rfl, rfl, rfl, rfl⟩)
      | false =>
        rw [if_neg (by simp [hclosed])] at hafter
        have hopen := ((hs.after events).unshut hclosed).1
        refine h.pass hs _ ?_ ?_ ?_ ?_ <;> rw [hafter]
        · exact fun _ => h.early (hopen ▸ trivial)
        · exact Closing.noConfusion
        · exact Closing.noConfusion
    | close now => exact h.close hs now
    | abandonShutdown =>
      rw [Engine.next] at hafter
      rcases (e.after events).abandonShutdown_turn with hsame | ⟨hover, hcancelled, -⟩
      · exact h.stay hs _ (by rw [hafter, hsame]; exact ⟨rfl, rfl, rfl, rfl⟩)
      · rw [← hafter] at hover hcancelled
        refine h.pass hs _ ?_ ?_ ?_ hcancelled <;> rw [hover]
        · exact False.elim
        · exact Closing.noConfusion
        · exact Closing.noConfusion
    | mutate _ | storeRuntime _ | advanceRuntime | request | settled _ | watch _ | unwatch _
    | pump _ | act _ | respond _ | explode => cases hshutdown

end Patience

theorem start_sends (config : Config) (store : Store) (events : List Event) :
    ((start config store).after events).Sends := by
  induction events using List.reverseRecOn with
  | nil => exact .of_closing nofun
  | append_singleton events ev ih =>
    rw [after_concat]
    exact ih.next ((Sound.start config store).after events) (start_unhindered config store events) ev

theorem start_patience (config : Config) (store : Store) (events : List Event) :
    (start config store).Patience events := by
  induction events using List.reverseRecOn with
  | nil => exact ⟨fun _ => rfl, nofun, nofun, nofun⟩
  | append_singleton events ev ih => exact ih.concat (.start config store) ev

/-- As long as every call returns, the actor does its duty unless it is cancelled. -/
theorem start_dutiful (config : Config) (store : Store) {events : List Event}
    (hreturns : .explode ∉ events) : ((start config store).after events).Dutiful ∨
      ((start config store).after events).actor.cancelled = true := by
  have hsound : (start config store).Sound := .start config store
  induction events using List.reverseRecOn with
  | nil => exact Or.inl ⟨rfl, False.elim, nofun, False.elim⟩
  | append_singleton events ev ih =>
    rw [List.mem_append, List.mem_singleton, not_or] at hreturns
    rw [after_concat]
    rcases ih hreturns.1 with hdutiful | hcancelled
    · exact hdutiful.next (hsound.after events) (start_sends config store events)
        (Ne.symm hreturns.2)
    · exact Or.inr ((hsound.after events).cancelled_next ev hcancelled)

/-- Whether the caller of a shutdown is told of its end or of a timeout: when the actor has exited,
everything has been taken down. Nothing but a cancellation by the background can prevent that, and
then the teardown has had a whole timeout more and is still not over. -/
theorem launched_tears_down {config : Config} {store : Store} {executor : Bool} {e : Engine}
    (h : launch config store executor = .ok e) {events : List Event}
    (hreturns : .explode ∉ events)
    (hend : HasExited (e.after events).actor.stage ∨ (e.after events).actor.cancelled = true) :
    e.TornDown events ∨ (e.after events).actor.cancelled = true ∧ e.Escalates events := by
  obtain ⟨config, rfl⟩ := launch_eq_ok h
  rcases start_dutiful config store hreturns with hdutiful | hcancelled
  · obtain ⟨report, hreply⟩ : ∃ report, ((start config store).after events).reply = .given report :=
      hend.elim hdutiful.exited fun hcancelled => by cases hdutiful.uncancelled.symm.trans hcancelled
    exact Or.inl (start_tornDown config store hreply)
  · -- Whoever has been cancelled after the report was given had nothing left to do.
    rcases (start_patience config store events).cancelled hcancelled with ⟨report, hreply⟩ | hforced
    · exact Or.inl (start_tornDown config store hreply)
    · exact Or.inr ⟨hcancelled, hforced⟩

def firstPass : List Event :=
  [.pump 0, .pump 50, .pump 50, .pump 50] ++ List.replicate 11 (.act 50) ++
    [.respond (.ok 1), .act 50]

/-- The container is slow to destroy it, and the caller of the shutdown does not wait so long. -/
def overdue : List Event :=
  [.shutdown 60, .close 60, .close 60] ++ List.replicate 5 (.act 60) ++
    List.replicate 3 (.close 5060)

def destroyedLate : List Event :=
  .respond (.ok 1) :: List.replicate 3 (.act 6060)

def destroyedTooLate : List Event :=
  List.replicate 3 (.close 10060) ++ List.replicate 3 (.act 10060) ++ [.respond (.ok 1)]

theorem overdue_told : (start .default (.empty 0)).WasTold (firstPass ++ overdue) := by
  refine ⟨firstPass ++ ([.shutdown 60, .close 60, .close 60] ++ List.replicate 5 (.act 60)), 5060,
    ⟨List.replicate 2 (.close 5060), rfl⟩, ?_⟩
  decide +kernel

theorem destroyedLate_tornDown : ∃ e, launch .default (.empty 0) true = .ok e ∧
    e.WasTold (firstPass ++ overdue) ∧ .explode ∉ firstPass ++ overdue ++ destroyedLate ∧
    HasExited (e.after (firstPass ++ overdue ++ destroyedLate)).actor.stage ∧
    e.TornDown (firstPass ++ overdue ++ destroyedLate) := by
  have hlaunch : launch .default (.empty 0) true = .ok (start .default (.empty 0)) := rfl
  have hreturns : .explode ∉ firstPass ++ overdue ++ destroyedLate := by
    simp [firstPass, overdue, destroyedLate]
  have hactor : ((start .default (.empty 0)).after
      (firstPass ++ overdue ++ destroyedLate)).actor.stage = .finished ∧
      ((start .default (.empty 0)).after
        (firstPass ++ overdue ++ destroyedLate)).actor.cancelled = false := by
    decide +kernel
  have hexited : HasExited ((start .default (.empty 0)).after
      (firstPass ++ overdue ++ destroyedLate)).actor.stage := by
    rw [hactor.1]
    trivial
  have htorn := launched_tears_down hlaunch hreturns (Or.inl hexited)
  refine ⟨_, hlaunch, overdue_told, hreturns, hexited, htorn.resolve_right ?_⟩
  rintro ⟨hcancelled, -⟩
  cases hactor.2.symm.trans hcancelled

/-- The patience of the background is not endless, and then a teardown in progress is cut short. -/
theorem destroyedTooLate_not_tornDown : ∃ e, launch .default (.empty 0) true = .ok e ∧
    e.WasTold (firstPass ++ overdue) ∧ .explode ∉ firstPass ++ overdue ++ destroyedTooLate ∧
    (e.after (firstPass ++ overdue ++ destroyedTooLate)).actor.stage = .finished ∧
    ¬ e.TornDown (firstPass ++ overdue ++ destroyedTooLate) := by
  have hlaunch : launch .default (.empty 0) true = .ok (start .default (.empty 0)) := rfl
  have hreturns : .explode ∉ firstPass ++ overdue ++ destroyedTooLate := by
    simp [firstPass, overdue, destroyedTooLate]
  have hstage : ((start .default (.empty 0)).after
      (firstPass ++ overdue ++ destroyedTooLate)).actor.stage = .finished := by
    decide +kernel
  have hidle : ((start .default (.empty 0)).after firstPass).work = none := by decide +kernel
  have hlive : (((start .default (.empty 0)).after firstPass).live.get? "/").isSome = true := by
    decide +kernel
  have hnone : (((start .default (.empty 0)).after firstPass).exchanges
      (overdue ++ destroyedTooLate)).isEmpty = true := by
    decide +kernel
  refine ⟨_, hlaunch, overdue_told, hreturns, hstage, fun h => ?_⟩
  obtain ⟨x, hx, -⟩ := h.destroyed firstPass (overdue ++ destroyedTooLate)
    (List.append_assoc _ _ _) (by rw [hidle]; exact nofun) "/" hlive
  rw [List.isEmpty_iff.1 hnone] at hx
  cases hx

end Reconciliation.Engine
