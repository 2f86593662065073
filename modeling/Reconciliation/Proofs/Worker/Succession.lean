import Mathlib.Data.List.Induction
import Mathlib.Data.List.Infix
import Reconciliation.Proofs.Worker.Supervisor

/-! # Commands outlive the generations of their actor

What the generations of an actor have begun to handle, taken together, is the head of what its
mailbox has accepted, and one command is done with before the next one is begun.
-/
namespace Reconciliation.Supervisor

variable {α : Type}

section stage

variable (x : Stage α)

@[simp] theorem onEntry_accepted : x.onEntry.filterMap Mark.accepted? = [] := by
  cases x <;> rfl

@[simp] theorem onEntry_ended : x.onEntry.filterMap Mark.ended? = [] := by
  cases x <;> rfl

@[simp] theorem onEntry_isOfHandler : x.onEntry.filter Mark.isOfHandler = x.atWork.map .begun := by
  cases x <;> rfl

@[simp] theorem cancelled_notMem_onEntry : .cancelled ∉ x.onEntry := by
  cases x <;> simp [Stage.onEntry]

end stage

def bothMarks (m : α) : List (Mark α) :=
  [.begun m, .ended m]

/-- Where the accepted commands are: done with, at work, cut short, lost, in hand or queued. Only
cancelling cuts a handler short or loses a command. -/
structure Accounts (s : Supervisor α) (log : List (Mark α)) (cut lost : List α) : Prop where
  handlers : log.filter Mark.isOfHandler =
    (log.filterMap Mark.ended?).flatMap bothMarks ++ (s.stage.atWork ++ cut).map .begun
  queue : log.filterMap Mark.accepted? = log.filterMap Mark.ended? ++
    (s.stage.atWork ++ (cut ++ (lost ++ (s.stage.inHand ++ s.mailbox.items))))
  live : s.cancelled = false → cut = [] ∧ lost = []
  one : (s.stage.atWork ++ cut).length ≤ 1

def Drained (s : Supervisor α) (log : List (Mark α)) : Prop :=
  s.mailbox.closed = true ∧ log.filterMap Mark.ended? = log.filterMap Mark.accepted?

section step

variable {s s' : Supervisor α} {log news : List (Mark α)} {cut lost : List α}

theorem Admits.bare {x : Stage α} (h : s.Admits x) : x.atWork = [] ∧ x.inHand = [] := by
  cases x with
  | received m | handling m => exact h.elim
  | launching | spawned | starting | receiving | stopping e | ended e | backingOff due
  | finished => exact ⟨rfl, rfl⟩

theorem Admits.isBeginning_eq_false {x : Stage α} (h : s.Admits x)
    (hcancelled : s.cancelled = true) : ∀ y ∈ x.onEntry, y.isBeginning = false := by
  cases x with
  | starting => cases hcancelled.symm.trans h
  | handling m => exact h.elim
  | ended e => simp [Stage.onEntry, Mark.isBeginning]
  | launching | spawned | receiving | received m | stopping e | backingOff due
  | finished => simp [Stage.onEntry]

/-- The books after an event, from those before and what the event adds. -/
theorem Accounts.extend (h : Accounts s log cut lost) {cut' lost' : List α}
    (hhandlers : (s.stage.atWork ++ cut).map .begun ++ news.filter Mark.isOfHandler =
      (news.filterMap Mark.ended?).flatMap bothMarks ++ (s'.stage.atWork ++ cut').map .begun)
    (hqueue : s.stage.atWork ++ (cut ++ (lost ++ (s.stage.inHand ++ s.mailbox.items))) ++
        news.filterMap Mark.accepted? = news.filterMap Mark.ended? ++
      (s'.stage.atWork ++ (cut' ++ (lost' ++ (s'.stage.inHand ++ s'.mailbox.items)))))
    (hlive : s'.cancelled = false → cut' = [] ∧ lost' = [])
    (hone : (s'.stage.atWork ++ cut').length ≤ 1) : Accounts s' (log ++ news) cut' lost' := by
  refine ⟨?_, ?_, hlive, hone⟩
  · rw [List.filter_append, h.handlers, List.append_assoc, hhandlers, List.filterMap_append,
      List.flatMap_append, List.append_assoc]
  · rw [List.filterMap_append, h.queue, List.append_assoc, hqueue, List.filterMap_append,
      List.append_assoc]

theorem Turn.accounts (h : Turn s s' news) (hlasts : Lasts s s') (hlog : Accounts s log cut lost) :
    ∃ cut' lost', Accounts s' (log ++ news) cut' lost' := by
  have hdead : s.cancelled = true → ∀ {p : Prop}, s'.cancelled = false → p := by
    intro hcancelled p hlive
    cases (hlasts.cancelled hcancelled).symm.trans hlive
  have hlive : s'.cancelled = false → cut = [] ∧ lost = [] := by
    intro hlive
    cases hcancelled : s.cancelled with
    | true => exact hdead hcancelled hlive
    | false => exact hlog.live hcancelled
  have hone := hlog.one
  cases h with
  | @mail m _ hitems hstage =>
    refine ⟨cut, lost, hlog.extend ?_ ?_ hlive ?_⟩
    · cases m <;> simp [hstage, List.filterMap_cons, Mark.isOfHandler, Mark.ended?]
    · cases m <;> simp [hstage, hitems, List.filterMap_cons, Mark.ended?, Mark.accepted?]
    · rwa [hstage]
  | cancel _ hitems hstage =>
    refine ⟨cut, lost, hlog.extend ?_ ?_ hlive ?_⟩
    · simp [hstage, List.filterMap_cons, Mark.isOfHandler, Mark.ended?]
    · simp [hstage, hitems, List.filterMap_cons, Mark.ended?, Mark.accepted?]
    · rwa [hstage]
  | take hlive' hstage hitems hto =>
    obtain ⟨rfl, rfl⟩ := hlog.live hlive'
    refine ⟨[], [], hlog.extend ?_ ?_ hlive ?_⟩
    · simp [hstage, hto, Stage.atWork]
    · simp [hstage, hitems, hto, Stage.atWork, Stage.inHand]
    · simp [hto, Stage.atWork]
  | begin hlive' hstage hitems hto =>
    obtain ⟨rfl, rfl⟩ := hlog.live hlive'
    refine ⟨[], [], hlog.extend ?_ ?_ hlive ?_⟩
    · simp [hstage, hto, Stage.atWork, List.filter_cons, List.filterMap_cons, Mark.isOfHandler,
        Mark.ended?]
    · simp [hstage, hitems, hto, Stage.atWork, Stage.inHand, List.filterMap_cons, Mark.ended?,
        Mark.accepted?]
    · simp [hto, Stage.atWork]
  | @drop m hcancelled hstage hitems hto =>
    refine ⟨cut, lost ++ [m], hlog.extend ?_ ?_ (hdead hcancelled) ?_⟩
    · simp [hstage, hto, Stage.atWork]
    · simp [hstage, hitems, hto, Stage.atWork, Stage.inHand]
    · simpa [hstage, hto, Stage.atWork] using hone
  | @cut m hcancelled hstage hitems hto =>
    refine ⟨m :: cut, lost, hlog.extend ?_ ?_ (hdead hcancelled) ?_⟩
    · simp [hstage, hto, Stage.atWork]
    · simp [hstage, hitems, hto, Stage.atWork, Stage.inHand]
    · simpa [hstage, hto, Stage.atWork] using hone
  | @finish m hstage hitems hto =>
    have hatWork : s.stage.atWork = [m] := congrArg Stage.atWork hstage
    have hinHand : s.stage.inHand = [] := congrArg Stage.inHand hstage
    have hcut : cut = [] := by simpa [hatWork] using hone
    subst hcut
    refine ⟨[], lost, hlog.extend ?_ ?_ hlive ?_⟩
    · simp [hatWork, bothMarks, List.filter_cons, Mark.isOfHandler, Mark.ended?]
    · simp [hatWork, hinHand, hitems, hto.bare, List.filterMap_cons, Mark.ended?, Mark.accepted?]
    · simp [hto.bare]
  | move hatWork hinHand hitems hto =>
    refine ⟨cut, lost, hlog.extend ?_ ?_ hlive ?_⟩
    · simp [hatWork, hto.bare]
    · simp [hatWork, hinHand, hitems, hto.bare]
    · simpa [hatWork, hto.bare] using hone

theorem Turn.stays_drained (h : Turn s s' news) (hlasts : Lasts s s')
    (hlog : Accounts s log cut lost) (hdrained : s.Drained log) : s'.Drained (log ++ news) := by
  obtain ⟨hclosed, hended⟩ := hdrained
  have hrest : s.stage.atWork ++ (cut ++ (lost ++ (s.stage.inHand ++ s.mailbox.items))) = [] := by
    have hqueue := hlog.queue
    rwa [hended, List.self_eq_append_right] at hqueue
  refine ⟨hlasts.closed hclosed, ?_⟩
  rw [List.filterMap_append, List.filterMap_append, hended]
  cases h with
  | @mail m hopen _ _ =>
    cases m with
    | none => rfl
    | some m => cases hclosed.symm.trans (hopen (Option.some_ne_none m))
  | cancel _ _ _ => rfl
  | take _ _ _ _ => rfl
  | begin _ _ _ _ => rfl
  | drop _ _ _ _ => rfl
  | cut _ _ _ _ => rfl
  | finish hstage _ _ => simp [hstage, Stage.atWork] at hrest
  | move _ _ _ _ => rw [onEntry_ended, onEntry_accepted]

theorem exited_mem_onEntry {x : Stage α} {e : Exit} (h : .exited e ∈ x.onEntry) :
    x = .ended e := by
  cases x with
  | ended e' =>
    obtain rfl := Mark.exited.inj (List.mem_singleton.1 h)
    rfl
  | starting | handling m => simp [Stage.onEntry] at h
  | launching | spawned | receiving | received m | stopping e' | backingOff due
  | finished => cases h

theorem Admits.nothing_left {x : Stage α} (h : s.Admits x)
    (hold : s.stage ≠ .stopping .mailboxClosed)
    (hnew : x = .stopping .mailboxClosed ∨ .exited .mailboxClosed ∈ x.onEntry) :
    s.cancelled = false ∧ s.mailbox.closed = true ∧ s.mailbox.items = [] := by
  rcases hnew with rfl | hmem
  · exact h
  · rw [exited_mem_onEntry hmem] at h
    exact absurd h hold

/-- A generation that stops because of a closed mailbox leaves nothing behind. -/
theorem Turn.drains (h : Turn s s' news) (hlasts : Lasts s s') (hlog : Accounts s log cut lost)
    (hold : s.stage ≠ .stopping .mailboxClosed)
    (hnew : s'.stage = .stopping .mailboxClosed ∨ .exited .mailboxClosed ∈ news) :
    s'.Drained (log ++ news) := by
  rw [Drained, List.filterMap_append, List.filterMap_append, hlog.queue]
  cases h with
  | mail _ _ hstage => simp [hstage, hold] at hnew
  | cancel _ _ hstage => simp [hstage, hold] at hnew
  | take _ _ _ hto => simp [hto] at hnew
  | begin _ _ _ hto => simp [hto] at hnew
  | drop _ _ _ hto => simp [hto] at hnew
  | cut _ _ _ hto => simp [hto] at hnew
  | @finish m hstage _ hto =>
    have hatWork : s.stage.atWork = [m] := congrArg Stage.atWork hstage
    have hinHand : s.stage.inHand = [] := congrArg Stage.inHand hstage
    obtain ⟨hlive, hclosed, hempty⟩ := hto.nothing_left hold (by simpa using hnew)
    refine ⟨hlasts.closed hclosed, ?_⟩
    simp [hatWork, hinHand, hempty, hlog.live hlive, List.filterMap_cons, Mark.ended?,
      Mark.accepted?]
  | move hatWork hinHand _ hto =>
    obtain ⟨hlive, hclosed, hempty⟩ := hto.nothing_left hold hnew
    refine ⟨hlasts.closed hclosed, ?_⟩
    simp [hatWork, hinHand, hempty, hlog.live hlive]

theorem Turn.eq_of_cancelled (h : Turn s s' news) (hmem : .cancelled ∈ news) :
    news = [.cancelled] ∧ s'.cancelled = true := by
  cases h with
  | cancel hcancelled _ _ => exact ⟨rfl, hcancelled⟩
  | mail _ _ _ => simp at hmem
  | take _ _ _ _ => cases hmem
  | begin _ _ _ _ => simp at hmem
  | drop _ _ _ _ => cases hmem
  | cut _ _ _ _ => cases hmem
  | finish _ _ _ => simp at hmem
  | move _ _ _ _ => exact absurd hmem (cancelled_notMem_onEntry _)

theorem Turn.isBeginning_eq_false (h : Turn s s' news) (hcancelled : s.cancelled = true) :
    ∀ y ∈ news, y.isBeginning = false := by
  cases h with
  | mail _ _ _ => simp [Mark.isBeginning]
  | cancel _ _ _ => simp [Mark.isBeginning]
  | take _ _ _ _ => simp
  | begin hlive _ _ _ => cases hcancelled.symm.trans hlive
  | drop _ _ _ _ => simp
  | cut _ _ _ _ => simp
  | finish _ _ hto =>
    have hentry := hto.isBeginning_eq_false hcancelled
    simpa [Mark.isBeginning] using hentry
  | move _ _ _ hto => exact hto.isBeginning_eq_false hcancelled

theorem Accounts.begun (h : Accounts s log cut lost) :
    log.filterMap Mark.begun? = log.filterMap Mark.ended? ++ (s.stage.atWork ++ cut) := by
  have hfilter : (log.filter Mark.isOfHandler).filterMap Mark.begun? =
      log.filterMap Mark.begun? := by
    rw [List.filterMap_filter]
    congr 1
    funext x
    cases x <;> rfl
  have hboth : ∀ m : α, (bothMarks m).filterMap Mark.begun? = [m] := fun _ => rfl
  have hmap : ∀ ms : List α, (ms.map Mark.begun).filterMap Mark.begun? = ms := by
    intro ms
    rw [List.filterMap_map]
    exact List.filterMap_some
  rw [← hfilter, h.handlers, List.filterMap_append, List.filterMap_flatMap, hmap]
  simp only [hboth, List.flatMap_singleton']

theorem Accounts.order (h : Accounts s log cut lost) :
    log.filterMap Mark.begun? <+: log.filterMap Mark.accepted? := by
  refine ⟨lost ++ (s.stage.inHand ++ s.mailbox.items), ?_⟩
  rw [h.begun, h.queue]
  simp only [List.append_assoc]

theorem Accounts.alone (h : Accounts s log cut lost) :
    log.filter Mark.isOfHandler <+: (log.filterMap Mark.begun?).flatMap bothMarks := by
  have hone := h.one
  rw [h.handlers, h.begun, List.flatMap_append, List.prefix_append_right_inj]
  generalize s.stage.atWork ++ cut = ms at hone
  match ms with
  | [] => exact List.nil_prefix
  | [m] => exact ⟨[.ended m], rfl⟩
  | _ :: _ :: _ => simp at hone

structure Course (s : Supervisor α) (log : List (Mark α)) : Prop where
  accounts : ∃ cut lost, Accounts s log cut lost
  drained : s.stage = .stopping .mailboxClosed ∨ .exited .mailboxClosed ∈ log → s.Drained log
  cancelled : .cancelled ∈ log → s.cancelled = true
  quiet : log.Pairwise fun x y => x = .cancelled → y.isBeginning = false

theorem Course.turn (h : Course s log) (hlasts : Lasts s s') (hturn : Turn s s' news) :
    Course s' (log ++ news) := by
  obtain ⟨cut, lost, haccounts⟩ := h.accounts
  refine ⟨hturn.accounts hlasts haccounts, ?_, ?_, ?_⟩
  · intro hmailbox
    by_cases hbefore : s.Drained log
    · exact hturn.stays_drained hlasts haccounts hbefore
    · -- If it was not drained before, it was not said to be, so this event made the difference.
      have hold := fun ho => hbefore (h.drained ho)
      refine hturn.drains hlasts haccounts (fun ho => hold (Or.inl ho)) ?_
      rw [List.mem_append] at hmailbox
      exact hmailbox.imp_right fun hm => hm.resolve_left fun ho => hold (Or.inr ho)
  · intro hm
    rcases List.mem_append.1 hm with hm | hm
    · exact hlasts.cancelled (h.cancelled hm)
    · exact (hturn.eq_of_cancelled hm).2
  · refine List.pairwise_append.2 ⟨h.quiet, ?_, ?_⟩
    · by_cases hm : .cancelled ∈ news
      · rw [(hturn.eq_of_cancelled hm).1]
        exact List.pairwise_singleton _ _
      · apply List.pairwise_of_forall_mem_list
        rintro x hx y - rfl
        exact absurd hx hm
    · rintro x hx y hy rfl
      exact hturn.isBeginning_eq_false (h.cancelled hx) y hy

end step

section

variable [DecidableEq α]

theorem course_after (policy : RestartPolicy) (capacity : Nat) {events : List (Event α)}
    (h : ∀ e ∈ events, e.SparesReceiver) :
    Peopled ((start policy capacity).after events).mailbox ∧
      Course ((start policy capacity).after events) ((start policy capacity).log events) := by
  induction events using List.reverseRecOn with
  | nil =>
    refine ⟨fun x hx => absurd hx List.not_mem_nil, ⟨[], [], rfl, rfl, ?_, ?_⟩, ?_, ?_, ?_⟩
    · exact fun _ => ⟨rfl, rfl⟩
    · exact Nat.zero_le 1
    · rintro (hstage | hm) <;> [cases hstage; cases hm]
    · exact fun hm => absurd hm List.not_mem_nil
    · exact List.Pairwise.nil
  | append_singleton events e ih =>
    obtain ⟨hpeopled, hcourse⟩ := ih fun e he => h e (List.mem_append_left _ he)
    have he : e.SparesReceiver := h e (List.mem_append_right _ List.mem_cons_self)
    obtain ⟨hlasts, hturn⟩ := next_turn hpeopled he
    rw [after_concat, log_concat]
    exact ⟨hlasts.peopled hpeopled, hcourse.turn hlasts hturn⟩

structure Orderly (log : List (Mark α)) : Prop where
  /-- No command is handled twice, passed over or out of its turn. -/
  order : log.filterMap Mark.begun? <+: log.filterMap Mark.accepted?
  /-- Every handler but the last has ended before the next one begins. -/
  alone : log.filter Mark.isOfHandler <+: (log.filterMap Mark.begun?).flatMap bothMarks
  /-- Nothing begins after cancelling. -/
  quiet : log.Pairwise fun x y => x = .cancelled → y.isBeginning = false
  /-- A generation that exits because the mailbox is closed leaves no command unhandled. -/
  drained : .exited .mailboxClosed ∈ log →
    log.filterMap Mark.ended? = log.filterMap Mark.accepted?

/-- Whatever generations do, whatever the policy says about it, and however others send, close and
cancel meanwhile: the commands are handled in order. -/
theorem start_orderly (policy : RestartPolicy) (capacity : Nat) {events : List (Event α)}
    (h : ∀ e ∈ events, e.SparesReceiver) : Orderly ((start policy capacity).log events) := by
  obtain ⟨-, hcourse⟩ := course_after policy capacity h
  obtain ⟨cut, lost, haccounts⟩ := hcourse.accounts
  exact ⟨haccounts.order, haccounts.alone, hcourse.quiet,
    fun hm => (hcourse.drained (Or.inr hm)).2⟩

end

instance : (e : Event α) → Decidable e.SparesReceiver
  | .mailbox (.join c (.send _)) | .mailbox (.step c) | .mailbox (.leave c) =>
    inferInstanceAs (Decidable (c ≠ receiver))
  | .mailbox (.join _ .receive) => inferInstanceAs (Decidable False)
  | .mailbox (.trySend _) | .mailbox .close | .step _ | .crash | .started _ | .handled _ | .close
  | .cancel => inferInstanceAs (Decidable True)

/-- The first generation fails with the first of three commands. The second one handles the others,
finds the mailbox closed and exits. -/
def recovery : List (Event Nat) :=
  [.mailbox (.trySend 1), .mailbox (.trySend 2), .step 0, .step 0, .started .ready, .step 0,
    .step 0, .step 0, .step 0, .handled (.failed "no paper"), .mailbox (.join 1 (.send 3)),
    .mailbox (.step 1), .mailbox (.step 1), .step 0, .step 0, .step 50, .step 50, .step 50,
    .started .ready, .step 50, .step 50, .step 50, .step 50, .handled .goOn, .close, .step 60,
    .step 60, .step 60, .step 60, .handled .goOn, .step 60, .step 60, .step 60, .step 60, .cancel]

theorem recovery_orderly : (∀ e ∈ recovery, e.SparesReceiver) ∧
    Orderly ((start (.onFailure 1 50) 2).log recovery) ∧
    (start (.onFailure 1 50) 2).log recovery =
      [.accepted 1, .accepted 2, .starting, .begun 1, .ended 1, .accepted 3,
        .exited (.handlerFailed "no paper"), .starting, .begun 2, .ended 2, .begun 3, .ended 3,
        .exited .mailboxClosed, .cancelled] := by
  have hspares : ∀ e ∈ recovery, e.SparesReceiver := by decide
  exact ⟨hspares, start_orderly (.onFailure 1 50) 2 hspares, rfl⟩

end Reconciliation.Supervisor
