import Reconciliation.Proofs.Engine.Moves

/-! # What is always true of an engine

Every ticket that is out is carried by one command or by the pump, the work at hand belongs to the
command that is being handled, and the shutdown command comes at most once. No event changes that.
-/
namespace Reconciliation.Engine.Sound

variable {e : Engine} {ev : Event}

theorem start (config : Config) (store : Store) : Sound (Engine.start config store) := by
  constructor
  · exact fun x hx => absurd hx List.not_mem_nil
  · exact .idle rfl
  · rfl
  · exact Eq.refl ([] : List Nat)
  · exact nofun
  · exact fun _ => ⟨rfl, rfl⟩
  · exact fun _ => List.not_mem_nil
  · exact Nat.zero_le 1
  · exact nofun
  · exact nofun

theorem work_of_idle (h : e.Sound) (hidle : stageLoad e.actor.stage = 0) : e.work = none := by
  cases hwork : e.work with
  | none => rfl
  | some w =>
    obtain ⟨m, hstage, -⟩ := h.handling_of_work hwork
    rw [hstage] at hidle
    cases hidle

theorem orders_of_idle {a : Supervisor Command} (hidle : stageLoad a.stage = 0) :
    a.orders = a.mailbox.items := by
  unfold Supervisor.orders Supervisor.waiting
  cases hstage : a.stage <;> rw [hstage] at hidle <;> first | rfl | cases hidle

theorem with_debouncer (h : e.Sound) {d : Debouncer} (hlatest : d.HoldsLatest)
    (hheld : d.held = e.debouncer.held) (hshut : e.debouncer.phase = .closed → d.phase = .closed) :
    Sound { e with debouncer := d } :=
  { h with
    carried := h.carried.trans hheld.symm
    latest := hlatest
    shut := fun hclosed => hshut (h.shut hclosed) }

theorem expects (h : e.Sound) {l : List (Nat × Mailbox.Want Command)}
    (hsub : l ⊆ e.actor.mailbox.errands) : ∀ x ∈ l, e.Expects x :=
  fun x hx => h.errands x (hsub hx)

theorem with_actor (h : e.Sound) {a : Supervisor Command} {w : Option Work}
    (hattuned : Attuned a.stage w) (horders : a.orders = e.actor.orders)
    (herrands : ∀ x ∈ a.mailbox.errands, e.Expects x)
    (hcancelled : a.cancelled = e.actor.cancelled)
    (hover : IsOver e.actor.stage → IsOver a.stage) :
    Sound { e with actor := a, work := w } := by
  refine { h with
    errands := herrands
    attuned := hattuned
    carried := ?_
    unshut := ?_
    unsent := ?_
    once := ?_
    given := fun report hreply => hover (h.given report hreply) }
  · rw [← h.carried, Engine.carried, Engine.carried, horders]
  · intro hopen
    obtain ⟨hclosing, hlive⟩ := h.unshut hopen
    exact ⟨hclosing, hcancelled.trans hlive⟩
  · rw [horders]
    exact h.unsent
  · rw [horders]
    exact h.once

theorem with_mailbox (h : e.Sound) {b : Mailbox Command}
    (hitems : b.items = e.actor.mailbox.items) (herrands : ∀ x ∈ b.errands, e.Expects x) :
    Sound { e with actor := { e.actor with mailbox := b } } :=
  h.with_actor (a := { e.actor with mailbox := b }) (w := e.work) h.attuned
    (congrArg (fun items => e.actor.stage.atWork ++ (e.actor.stage.inHand ++ items)) hitems)
    herrands rfl id

theorem with_work (h : e.Sound) {w w' : Work} (hwork : e.work = some w)
    (hserial : w'.serial? = w.serial?) (live : LiveMap) (board : StatusBoard) :
    Sound { e with live, board, work := some w' } := by
  obtain ⟨m, hstage, hm⟩ := h.handling_of_work hwork
  exact { h with
    attuned := by
      rw [hstage]
      exact .handling (hserial.trans hm) }

theorem end_pass (h : e.Sound) {serial : Nat}
    (hstage : e.actor.stage = .received (.pass serial) ∨
      e.actor.stage = .handling (.pass serial)) {a : Supervisor Command}
    (hto : stageLoad a.stage = 0) (hitems : a.mailbox.items = e.actor.mailbox.items)
    (herrands : a.mailbox.errands ⊆ e.actor.mailbox.errands)
    (hcancelled : a.cancelled = e.actor.cancelled) (live : LiveMap) (board : StatusBoard)
    (events : Feed PassEvent) :
    Sound { e with
      live, board, events
      debouncer := e.debouncer.giveBack serial
      actor := a
      work := none } := by
  have hbefore := Supervisor.orders_of_taken hstage
  have hafter : a.orders = e.actor.mailbox.items := (orders_of_idle hto).trans hitems
  have hcarried : serial :: (e.actor.mailbox.items.filterMap Command.serial? ++
      e.pump.ticket?.toList) = e.debouncer.held := by
    rw [← h.carried, Engine.carried, hbefore]
    rfl
  have hout : serial ∈ e.debouncer.held := hcarried ▸ List.mem_cons_self
  refine { h with
    errands := h.expects herrands
    attuned := .idle hto
    carried := ?_
    latest := h.latest.giveBack hout
    shut := ?_
    unshut := ?_
    unsent := ?_
    once := ?_
    given := ?_ }
  · rw [Engine.carried, hafter, (e.debouncer.giveBack_tickets serial).2, ← hcarried,
      List.erase_cons_head]
  · intro hclosed
    have hphase := h.shut hclosed
    exact (e.debouncer.giveBack_phase serial).trans (congrArg Phase.returned hphase)
  · intro hopen
    obtain ⟨hclosing, hlive⟩ := h.unshut hopen
    exact ⟨hclosing, hcancelled.trans hlive⟩
  · intro hclosing
    have hunsent := h.unsent hclosing
    rw [hbefore] at hunsent
    rw [hafter]
    exact fun hm => hunsent (List.mem_cons_of_mem _ hm)
  · have honce := h.once
    have hne : Command.pass serial ≠ .shutdown := nofun
    rw [hbefore, List.count_cons_of_ne hne] at honce
    rwa [hafter]
  · intro report hreply
    have hover := h.given report hreply
    rcases hstage with hstage | hstage <;> rw [hstage] at hover <;> exact hover.elim

theorem end_shutdown (h : e.Sound)
    (hstage : e.actor.stage = .received .shutdown ∨ e.actor.stage = .handling .shutdown)
    {a : Supervisor Command} (hto : stageLoad a.stage = 0)
    (hitems : a.mailbox.items = e.actor.mailbox.items)
    (herrands : a.mailbox.errands ⊆ e.actor.mailbox.errands) (live : LiveMap) {reply : Reply}
    (hgiven : ∀ report, reply = .given report → IsOver a.stage) :
    Sound { e with live, reply, actor := a, work := none } := by
  have hbefore := Supervisor.orders_of_taken hstage
  have hafter : a.orders = e.actor.mailbox.items := (orders_of_idle hto).trans hitems
  have hnone : Command.shutdown ∉ e.actor.mailbox.items := by
    have honce := h.once
    rw [hbefore, List.count_cons_self] at honce
    exact List.count_eq_zero.1 (by omega)
  have hsent : ¬ (e.closing = .open ∨ ∃ deadline, e.closing = .sending deadline) := by
    intro hclosing
    have hunsent := h.unsent hclosing
    rw [hbefore] at hunsent
    exact hunsent List.mem_cons_self
  refine { h with
    errands := h.expects herrands
    attuned := .idle hto
    carried := ?_
    unshut := ?_
    unsent := fun hclosing => absurd hclosing hsent
    once := ?_
    joining := ?_
    given := hgiven }
  · have hcarried := h.carried
    rw [Engine.carried, hbefore] at hcarried
    rw [Engine.carried, hafter]
    exact hcarried
  · intro hopen
    exact absurd (Or.inl (h.unshut hopen).1) hsent
  · rw [hafter, List.count_eq_zero.2 hnone]
    exact Nat.zero_le 1
  · intro report hclosing
    have hover := h.given report (h.joining report hclosing)
    rcases hstage with hstage | hstage <;> rw [hstage] at hover <;> exact hover.elim

theorem drop (h : e.Sound) {m : Command}
    (hstage : e.actor.stage = .received m ∨ e.actor.stage = .handling m)
    {a : Supervisor Command} (hto : stageLoad a.stage = 0)
    (hitems : a.mailbox.items = e.actor.mailbox.items)
    (herrands : a.mailbox.errands ⊆ e.actor.mailbox.errands)
    (hcancelled : a.cancelled = e.actor.cancelled) :
    Sound (({ e with actor := a, work := none } : Engine).dropCommand m) := by
  cases m with
  | pass serial => exact h.end_pass hstage hto hitems herrands hcancelled _ _ _
  | shutdown => exact h.end_shutdown hstage hto hitems herrands _ nofun

/-- Whoever is neither the pump nor the receiver has been sent by the shutdown. -/
theorem errand_of_ne_pump (h : e.Sound) {x : Nat × Mailbox.Want Command}
    (hx : x ∈ e.actor.mailbox.errands) (hne : x.1 ≠ pumpId) :
    x = (Supervisor.receiver, .receive) ∨
      ∃ deadline, e.closing = .sending deadline ∧ x = (closerId, .send .shutdown) := by
  rcases h.errands x hx with hx | ⟨n, -, rfl⟩ | hx
  · exact Or.inl hx
  · exact absurd rfl hne
  · exact Or.inr hx

theorem end_pump (h : e.Sound) {serial : Nat} (hpump : e.pump = .sending serial)
    (hgone : ∀ x ∈ e.actor.mailbox.errands, x.1 ≠ pumpId) :
    Sound (({ e with pump := .ended } : Engine).giveBack serial) := by
  have hcarried := h.carried
  rw [Engine.carried, hpump] at hcarried
  have hout : serial ∈ e.debouncer.held := by
    rw [← hcarried]
    exact List.mem_append_right _ List.mem_cons_self
  have hheld := h.latest.held_eq_singleton hout
  have hrest : e.actor.orders.filterMap Command.serial? = [] :=
    List.append_left_eq_self.1 (hcarried.trans hheld)
  refine { h with
    errands := fun x hx => (h.errand_of_ne_pump hx (hgone x hx)).imp_right Or.inr
    carried := ?_
    latest := h.latest.giveBack hout
    shut := ?_ }
  · have hback : (e.debouncer.giveBack serial).held = [] := by
      rw [(e.debouncer.giveBack_tickets serial).2, hheld, List.erase_cons_head]
    exact (congrArg (· ++ []) hrest).trans hback.symm
  · intro hclosed
    have hphase := h.shut hclosed
    exact (e.debouncer.giveBack_phase serial).trans (congrArg Phase.returned hphase)

theorem pump_turn (h : e.Sound) {e' : Engine} (ht : PumpTurn e e') : e'.Sound := by
  have hcarried := h.carried
  cases ht with
  | rest _ => exact h
  | look _ hphase hissued hheld =>
    exact h.with_debouncer (h.latest.of_eq hphase hissued hheld) hheld hphase.trans
  | @take d serial hpump hqueued hphase hserial hissued hheld =>
    rw [Engine.carried, hpump, Pump.ticket?, Option.toList_none, List.append_nil] at hcarried
    refine { h with errands := ?_, carried := ?_, latest := ?_, shut := ?_ }
    · intro x hx
      rw [Mailbox.join_errands] at hx
      rcases List.mem_append.1 hx with hx | hx
      · rcases h.errands x hx with hx | ⟨n, hn, -⟩ | hx
        · exact Or.inl hx
        · rw [hpump] at hn
          cases hn
        · exact Or.inr (Or.inr hx)
      · exact Or.inr (Or.inl ⟨serial, rfl, List.mem_singleton.1 hx⟩)
    · rw [hheld, ← hcarried]
      rfl
    · exact h.latest.issue hqueued hphase (hissued ▸ hheld)
    · intro hclosed
      cases hqueued.symm.trans (h.shut hclosed)
  | finish hpump hclosed hphase hissued hheld =>
    have hlatest := h.latest.of_eq (hphase.trans hclosed.symm) hissued hheld
    rw [Engine.carried, hpump] at hcarried
    refine { h with errands := ?_, carried := ?_, latest := hlatest, shut := fun _ => hphase }
    · intro x hx
      rcases h.errands x hx with hx | ⟨n, hn, -⟩ | hx
      · exact Or.inl hx
      · rw [hpump] at hn
        cases hn
      · exact Or.inr (Or.inr hx)
    · exact hcarried.trans hheld.symm
  | wait hpump heffect =>
    cases heffect with
    | still hitems _ herrands => exact h.with_mailbox hitems (herrands ▸ h.errands)
  | @leave b serial hpump heffect =>
    cases heffect with
    | @sent m hwant _ _ hitems _ herrands =>
      obtain ⟨n, hn, hm⟩ := h.pump_errand hwant
      obtain rfl : serial = n := Pump.sending.inj (hpump.symm.trans hn)
      obtain rfl : m = .pass serial := Mailbox.Want.send.inj hm
      have horders : ({ e.actor with mailbox := b } : Supervisor Command).orders =
          e.actor.orders ++ [.pass serial] := by
        simp [Supervisor.orders, Supervisor.waiting, hitems]
      refine { h with errands := ?_, carried := ?_, unsent := ?_, once := ?_ }
      · intro x hx
        obtain ⟨hx, hne⟩ := List.mem_filter.1 (herrands ▸ hx)
        exact (h.errand_of_ne_pump hx (by simpa using hne)).imp_right Or.inr
      · rw [Engine.carried, hpump] at hcarried
        rw [Engine.carried, horders, List.filterMap_append]
        exact (List.append_nil _).trans hcarried
      · intro hclosing
        rw [horders, List.mem_append, List.mem_singleton]
        exact not_or.2 ⟨h.unsent hclosing, nofun⟩
      · rw [horders, List.count_append]
        exact h.once
  | @fail b serial outcome hpump houtcome heffect =>
    cases heffect with
    | sent _ _ _ _ _ _ => exact absurd rfl houtcome
    | received hwant _ _ _ =>
      obtain ⟨n, -, hm⟩ := h.pump_errand hwant
      cases hm
    | drained hwant _ _ _ _ _ =>
      obtain ⟨n, -, hm⟩ := h.pump_errand hwant
      cases hm
    | refused _ _ hitems _ herrands =>
      have hmailbox := h.with_mailbox hitems (h.expects (herrands ▸ List.filter_sublist.subset))
      refine hmailbox.end_pump hpump ?_
      intro x hx
      have hne := (List.mem_filter.1 (herrands ▸ hx)).2
      simpa using hne

theorem with_idle_actor (h : e.Sound) {a : Supervisor Command}
    (hfrom : stageLoad e.actor.stage = 0) (hto : stageLoad a.stage = 0)
    (hitems : a.mailbox.items = e.actor.mailbox.items)
    (herrands : ∀ x ∈ a.mailbox.errands, e.Expects x)
    (hcancelled : a.cancelled = e.actor.cancelled)
    (hover : IsOver e.actor.stage → IsOver a.stage) : Sound { e with actor := a } := by
  refine h.with_actor (w := e.work) ?_ ?_ herrands hcancelled hover
  · rw [h.work_of_idle hfrom]
    exact .idle hto
  · rw [orders_of_idle hfrom, orders_of_idle hto, hitems]

theorem not_over {x : Supervisor.Stage Command} (hstage : e.actor.stage = x) (hx : ¬ IsOver x)
    {P : Prop} : IsOver e.actor.stage → P := by
  rw [hstage]
  exact fun h => absurd h hx

theorem actor_turn (h : e.Sound) {e' : Engine} (ht : ActorTurn e e') : e'.Sound := by
  cases ht with
  | rest => exact h
  | launch hstage | spawn hstage | ready hstage =>
    exact h.with_idle_actor (congrArg stageLoad hstage) rfl rfl h.errands rfl (not_over hstage id)
  | ask hstage =>
    refine h.with_mailbox (b := e.actor.mailbox.join Supervisor.receiver .receive) rfl ?_
    intro x hx
    rw [Mailbox.join_errands] at hx
    rcases List.mem_append.1 hx with hx | hx
    · exact h.errands x hx
    · exact Or.inl (List.mem_singleton.1 hx)
  | wait hstage heffect =>
    cases heffect with
    | still hitems _ herrands => exact h.with_mailbox hitems (herrands ▸ h.errands)
  | take hstage heffect =>
    cases heffect with
    | received _ hitems _ herrands =>
      refine h.with_actor (w := e.work) ?_ ?_ ?_ rfl (not_over hstage id)
      · rw [h.work_of_idle (congrArg stageLoad hstage)]
        exact .received _
      · rw [orders_of_idle (congrArg stageLoad hstage), hitems]
        exact Supervisor.orders_of_taken (Or.inl rfl)
      · exact h.expects (herrands ▸ List.filter_sublist.subset)
  | begin hstage =>
    refine h.with_actor (.handling rfl) ?_ h.errands rfl (not_over hstage id)
    rw [Supervisor.orders_of_taken (Or.inl hstage)]
    rfl
  | readRevision hwork | readRuntime hwork | readStore hwork =>
    exact h.with_work hwork (by rfl) _ _
  | @complete n serial changeCount resolution run hstage hwork _ =>
    have hstage := h.handling_pass hwork rfl
    have hactor : e.actor.handled .goOn = { e.actor with stage := .receiving } := by
      simp [Supervisor.handled, hstage]
    rw [completePass]
    dsimp only [giveBack]
    rw [hactor]
    exact h.end_pass (a := { e.actor with stage := .receiving }) (Or.inr hstage) rfl rfl
      (List.Subset.refl _) rfl _ _ _

theorem actor_move (h : e.Sound) {e' : Engine} (hm : ActorMove e e') : e'.Sound := by
  cases hm with
  | turn ht => exact h.actor_turn ht
  | idle hfrom hto hitems herrands hcancelled hover =>
    exact h.with_idle_actor hfrom hto hitems (h.expects herrands) hcancelled hover
  | cut hcancelled hstage =>
    refine h.drop hstage rfl (Mailbox.leave_items _ _) ?_ rfl
    rw [Supervisor.cut, Mailbox.leave_errands]
    exact List.filter_sublist.subset
  | beginTeardown hstage =>
    refine h.with_actor (.handling rfl) ?_ h.errands rfl (not_over hstage id)
    rw [Supervisor.orders_of_taken (Or.inl hstage)]
    rfl
  | unpublish hwork => exact h.with_work hwork (by rfl) _ _
  | endTeardown hwork _ =>
    have hstage := h.handling_shutdown hwork rfl
    exact h.end_shutdown (a := { e.actor with stage := .stopping .stopped }) (Or.inr hstage) rfl rfl
      (List.Subset.refl _) _ (fun _ _ => trivial)

theorem closed_of_closing (h : e.Sound) (hclosing : e.closing ≠ .open) : e.closed = true := by
  cases hclosed : e.closed with
  | true => rfl
  | false => exact absurd (h.unshut hclosed).1 hclosing

theorem shut_down (h : e.Sound) (hopen : e.closed = false) (deadline : Nat) : Sound { e with
    closed := true
    listening := false
    debouncer := e.debouncer.close
    closing := .sending deadline
    actor := { e.actor with mailbox := e.actor.mailbox.join closerId (.send .shutdown) } } := by
  have hclosing := (h.unshut hopen).1
  refine { h with
    errands := ?_
    latest := h.latest.close
    shut := fun _ => rfl
    unshut := nofun
    unsent := fun _ => h.unsent (Or.inl hclosing)
    joining := nofun }
  intro x hx
  rw [Mailbox.join_errands] at hx
  rcases List.mem_append.1 hx with hx | hx
  · rcases h.errands x hx with hx | hx | ⟨d, hd, -⟩
    · exact Or.inl hx
    · exact Or.inr (Or.inl hx)
    · cases hclosing.symm.trans hd
  · exact Or.inr (Or.inr ⟨deadline, rfl, List.mem_singleton.1 hx⟩)

theorem send_shutdown (h : e.Sound) {deadline : Nat} (hclosing : e.closing = .sending deadline)
    {b : Mailbox Command} (hitems : b.items = e.actor.mailbox.items ++ [.shutdown])
    (herrands : b.errands = e.actor.mailbox.errands.filter fun x => x.1 != closerId) :
    Sound { e with actor := { e.actor with mailbox := b }, closing := .awaiting deadline } := by
  have horders : ({ e.actor with mailbox := b } : Supervisor Command).orders =
      e.actor.orders ++ [.shutdown] := by
    simp [Supervisor.orders, Supervisor.waiting, hitems]
  have hclosed : e.closed = true := h.closed_of_closing (by rw [hclosing]; exact nofun)
  refine { h with
    errands := ?_
    carried := ?_
    unshut := ?_
    unsent := ?_
    once := ?_
    joining := nofun }
  · intro x hx
    obtain ⟨hx, hne⟩ := List.mem_filter.1 (herrands ▸ hx)
    rcases h.errands x hx with hx | hx | ⟨d, -, rfl⟩
    · exact Or.inl hx
    · exact Or.inr (Or.inl hx)
    · simp at hne
  · rw [Engine.carried, horders, List.filterMap_append]
    exact (congrArg (· ++ _) (List.append_nil _)).trans h.carried
  · intro hopen
    cases hclosed.symm.trans hopen
  · rintro (hc | ⟨d, hc⟩) <;> cases hc
  · have hnone := List.count_eq_zero.2 (h.unsent (Or.inr ⟨deadline, hclosing⟩))
    rw [horders, List.count_append, hnone]
    exact le_rfl

theorem end_sending (h : e.Sound) (hclosing : e.closing ≠ .open) {a : Supervisor Command}
    {j : JoinControl} {c : Closing} (hpast : c.PastSending)
    (hjoining : ∀ report, c = .joining report → e.reply = .given report)
    (hstage : a.stage = e.actor.stage) (hitems : a.mailbox.items = e.actor.mailbox.items)
    (herrands : ∀ x ∈ a.mailbox.errands, x ∈ e.actor.mailbox.errands ∧ x.1 ≠ closerId) :
    Sound { e with actor := a, join := j, closing := c } := by
  have horders : a.orders = e.actor.orders := by
    rw [Supervisor.orders, Supervisor.waiting, hstage, hitems]
    rfl
  have hclosed := h.closed_of_closing hclosing
  have hsent : ¬ (c = .open ∨ ∃ deadline, c = .sending deadline) := by
    rintro (rfl | ⟨deadline, rfl⟩) <;> exact hpast
  refine { h with
    errands := ?_
    attuned := ?_
    carried := ?_
    unshut := ?_
    unsent := fun hc => absurd hc hsent
    once := ?_
    joining := hjoining
    given := ?_ }
  · intro x hx
    obtain ⟨hx, hne⟩ := herrands x hx
    rcases h.errands x hx with hx | hx | ⟨d, -, rfl⟩
    · exact Or.inl hx
    · exact Or.inr (Or.inl hx)
    · exact absurd rfl hne
  · rw [hstage]
    exact h.attuned
  · rw [Engine.carried, horders]
    exact h.carried
  · intro hopen
    cases hclosed.symm.trans hopen
  · rw [horders]
    exact h.once
  · rw [hstage]
    exact h.given

theorem move (h : e.Sound) {e' : Engine} (hm : Move e ev e') : e'.Sound := by
  cases hm with
  | rest => exact h
  | watch _ _ _ _ | write _ _ => exact { h with }
  | @change store runtime _ _ =>
    have h' : Sound { e with store, runtime } := { h with }
    have hphase := e.debouncer.request_phase
    refine h'.with_debouncer h.latest.request (e.debouncer.request_tickets).2 ?_
    intro hclosed
    exact hphase.trans (congrArg Phase.requested hclosed)
  | pump ht => exact h.pump_turn ht
  | actor hm => exact h.actor_move hm
  | answer hwork _ | answerTeardown hwork _ => exact h.with_work hwork (by rfl) _ _
  | explode _ hstage => exact h.drop (Or.inr hstage) rfl rfl (List.Subset.refl _) rfl
  | shutdown _ hopen => exact h.shut_down hopen _
  | post hclosing heffect =>
    cases heffect with
    | still hitems _ herrands => exact h.with_mailbox hitems (herrands ▸ h.errands)
  | posted hclosing heffect =>
    cases heffect with
    | sent hwant _ _ hitems _ herrands =>
      obtain rfl := Mailbox.Want.send.inj (h.closer_errand hwant)
      exact h.send_shutdown hclosing hitems herrands
  | close hclosing hpast hjoining hstage hitems herrands =>
    exact h.end_sending hclosing hpast hjoining hstage hitems herrands

theorem next (h : e.Sound) (ev : Event) : (e.next ev).Sound :=
  h.move (h.next_move ev)

theorem after (h : e.Sound) (events : List Event) : (e.after events).Sound := by
  induction events generalizing e with
  | nil => exact h
  | cons ev events ih => exact ih (h.next ev)

end Reconciliation.Engine.Sound
