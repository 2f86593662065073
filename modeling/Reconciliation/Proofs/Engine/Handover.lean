import Reconciliation.Proofs.Engine.Publication

/-! # How tickets get to the mailbox

The mailbox has room for all that is ever under way to it. When tasks change places at await points
only, every ticket is there before anything else happens.
-/
namespace Reconciliation

namespace Mailbox

variable {α : Type} {b b' : Mailbox α} {c d : Nat}

def IsReady (b : Mailbox α) (c : Nat) : Prop :=
  ∃ x, b.caller? c = some x ∧ x.stage ≠ .waiting

theorem IsReady.canStep (h : b.IsReady c) : b.canStep c = true := by
  obtain ⟨x, hx, hstage⟩ := h
  simp [Mailbox.canStep, hx, hstage]

@[simp] theorem mapSignal_caller? (w : Want α) (f : Signal → Signal) :
    (b.mapSignal w f).caller? c = b.caller? c := by
  cases w <;> rfl

theorem setStage_caller? (d : Nat) (s : Stage) : (b.setStage d s).caller? c =
    (b.caller? c).map fun x => if x.id == d then { x with stage := s } else x := by
  have hid : ((fun x : Caller α => x.id == c) ∘ fun x =>
      if x.id == d then { x with stage := s } else x) = fun x => x.id == c := by
    funext x
    simp only [Function.comp]
    split <;> rfl
  unfold caller? setStage
  rw [List.find?_map, hid]

theorem join_caller?_self (h : b.caller? c = none) (w : Want α) :
    (b.join c w).caller? c = some ⟨c, w, .arriving⟩ := by
  unfold caller? at h
  simp [caller?, join, h]

structure Spares (c : Nat) (b b' : Mailbox α) : Prop where
  caller : b'.caller? c = b.caller? c
  capacity : b'.capacity = b.capacity

theorem Spares.isReady (h : Spares c b b') (hready : b.IsReady c) : b'.IsReady c := by
  unfold IsReady
  rw [h.caller]
  exact hready

theorem spares_refl : Spares c b b :=
  ⟨rfl, rfl⟩

theorem spares_join (hne : d ≠ c) (w : Want α) : Spares c b (b.join d w) :=
  ⟨by simp [caller?, join, hne], rfl⟩

theorem spares_setStage (hne : d ≠ c) (s : Stage) : Spares c b (b.setStage d s) := by
  refine ⟨?_, rfl⟩
  rw [setStage_caller?]
  cases hx : b.caller? c with
  | none => rfl
  | some x =>
    have hid : x.id = c := by simpa using List.find?_some hx
    simp [hid, hne.symm]

theorem spares_leave (hne : d ≠ c) : Spares c b (b.leave d) := by
  refine ⟨?_, leave_capacity b d⟩
  unfold leave
  split
  · rfl
  · unfold caller?
    simp only [List.find?_filter]
    congr 1
    funext y
    by_cases hy : y.id = c
    · simp [hy, hne.symm]
    · simp [hy]

theorem spares_attempt (hne : d ≠ c) (w : Want α) : Spares c b (b.attempt d w).1 := by
  cases w with
  | send m =>
    simp only [attempt]
    split
    · exact ⟨(spares_leave hne).caller, (spares_leave hne).capacity⟩
    · exact spares_leave hne
    · exact spares_setStage hne _
  | receive =>
    simp only [attempt]
    split
    · exact ⟨(spares_leave hne).caller, (spares_leave hne).capacity⟩
    · split
      · exact spares_leave hne
      · exact spares_setStage hne _

theorem spares_step (hne : d ≠ c) : Spares c b (b.step d).1 := by
  unfold step
  split
  · exact spares_refl
  · rename_i x _
    have hmoved (f : Signal → Signal) (s : Stage) :
        Spares c b ((b.mapSignal x.want f).setStage d s) := by
      have h := spares_setStage (b := b.mapSignal x.want f) hne s
      exact ⟨h.caller.trans (mapSignal_caller? _ _), h.capacity.trans (mapSignal_capacity _ _ _)⟩
    split
    · exact hmoved _ _
    · exact spares_attempt hne _
    · split
      · exact spares_refl
      · exact hmoved _ _

/-- Where there is room, a sender is not held up by its own steps either. -/
theorem IsReady.step (h : b.IsReady c) (hroom : b.items.length < b.capacity) {m : α}
    (hwant : b.want? c = some (.send m)) (hstill : (b.step c).2 = none) :
    (b.step c).1.IsReady c := by
  obtain ⟨x, hx, hstage⟩ := h
  have hid : x.id = c := by simpa using List.find?_some hx
  have hsend : x.want = .send m := by simpa [want?, hx] using hwant
  cases hs : x.stage with
  | waiting => exact absurd hs hstage
  | arriving =>
    simp only [Mailbox.step, hx, hs, hsend]
    refine ⟨{ x with stage := .enlisted }, ?_, nofun⟩
    rw [setStage_caller?, mapSignal_caller?, hx]
    simp [hid]
  | enlisted =>
    exfalso
    have hfull : ¬ b.items.length ≥ b.capacity := by omega
    simp only [Mailbox.step, hx, hs, hsend, attempt, obstacle, hfull] at hstill
    cases hclosed : b.closed <;> simp [hclosed] at hstill

end Mailbox

namespace Supervisor

variable {α : Type} (s : Supervisor α) {c : Nat}

theorem step_spares (now : Nat) (hne : receiver ≠ c) :
    Mailbox.Spares c s.mailbox (s.step now).1.mailbox := by
  unfold step
  split
  · split <;> exact Mailbox.spares_refl
  · split <;> exact Mailbox.spares_refl
  · split <;> exact Mailbox.spares_refl
  · split
    · exact Mailbox.spares_leave hne
    · unfold receive
      split
      · exact Mailbox.spares_join hne _
      · have hstep := Mailbox.spares_step (b := s.mailbox) hne
        split <;> rename_i heq <;> rw [heq] at hstep <;> exact hstep
  · split
    · exact Mailbox.spares_leave hne
    · exact Mailbox.spares_refl
  · split
    · exact Mailbox.spares_leave hne
    · exact Mailbox.spares_refl
  · exact Mailbox.spares_refl
  · unfold notice
    dsimp only
    split
    · exact Mailbox.spares_refl
    · split <;> exact Mailbox.spares_refl
  · split
    · exact Mailbox.spares_refl
    · split <;> exact Mailbox.spares_refl
  · exact Mailbox.spares_refl

theorem handled_mailbox (r : Handled) : (s.handled r).mailbox = s.mailbox := by
  unfold handled
  split <;> rfl

theorem started_mailbox (r : Started) : (s.started r).mailbox = s.mailbox := by
  unfold started
  split <;> rfl

end Supervisor

namespace Engine

variable {e : Engine} {c : Nat}

theorem dropCommand_actor (e : Engine) (m : Command) : (e.dropCommand m).actor = e.actor := by
  cases m <;> rfl

theorem stepWork_mailbox (e : Engine) : e.stepWork.actor.mailbox = e.actor.mailbox := by
  unfold stepWork
  split
  · rfl
  · rfl
  · rfl
  · rfl
  · split
    · rfl
    · exact e.actor.handled_mailbox _
  · rfl
  · split
    · rfl
    · exact e.actor.handled_mailbox _

theorem stepActor_spares (now : Nat) (hne : Supervisor.receiver ≠ c) :
    Mailbox.Spares c e.actor.mailbox (e.stepActor now).actor.mailbox := by
  unfold stepActor
  split
  · have hstep := e.actor.step_spares now hne
    split
    · rename_i actor m heq
      rw [heq] at hstep
      rw [dropCommand_actor]
      exact hstep
    · rename_i actor heq
      rw [heq] at hstep
      split <;> exact hstep
  · split
    · rw [e.actor.started_mailbox]
      exact Mailbox.spares_refl
    · rw [stepWork_mailbox]
      exact Mailbox.spares_refl
    · exact Mailbox.spares_refl

theorem stepClosing_spares (now : Nat) (hne : closerId ≠ c) :
    Mailbox.Spares c e.actor.mailbox (e.stepClosing now).1.actor.mailbox := by
  unfold stepClosing
  split
  · exact Mailbox.spares_refl
  · exact Mailbox.spares_refl
  · split
    · have hstep := Mailbox.spares_step (b := e.actor.mailbox) hne
      split <;> rename_i heq <;> rw [heq] at hstep <;> exact hstep
    · split
      · exact Mailbox.spares_leave hne
      · exact Mailbox.spares_refl
  · split
    · exact ⟨rfl, rfl⟩
    · exact Mailbox.spares_refl
    · split
      · exact Mailbox.spares_leave hne
      · exact Mailbox.spares_refl
  · split <;> exact Mailbox.spares_refl
  · exact ⟨rfl, rfl⟩
  · split <;> exact ⟨rfl, rfl⟩
  · split <;> exact Mailbox.spares_refl

theorem stepPump_spares (now : Nat) (hne : pumpId ≠ c) :
    Mailbox.Spares c e.actor.mailbox (e.stepPump now).actor.mailbox := by
  unfold stepPump
  split
  · split
    · exact Mailbox.spares_refl
    · exact Mailbox.spares_join hne _
    · exact Mailbox.spares_refl
  · have hstep := Mailbox.spares_step (b := e.actor.mailbox) hne
    split <;> rename_i heq <;> rw [heq] at hstep <;> exact hstep
  · exact Mailbox.spares_refl

def Event.isOfShutdown : Event → Bool
  | .shutdown _ | .close _ | .abandonShutdown => true
  | _ => false

theorem next_spares {ev : Event} (hreceiver : Supervisor.receiver ≠ c)
    (hpump : ev.isPump = true → pumpId ≠ c) (hcloser : ev.isOfShutdown = true → closerId ≠ c) :
    Mailbox.Spares c e.actor.mailbox (e.next ev).actor.mailbox := by
  cases ev with
  | pump now => exact stepPump_spares now (hpump rfl)
  | mutate m =>
    simp only [next, mutate, heard]
    split
    · split <;> exact Mailbox.spares_refl
    · exact Mailbox.spares_refl
  | advanceRuntime =>
    simp only [next, advanceRuntime, heard]
    split <;> exact Mailbox.spares_refl
  | storeRuntime _ | request | settled _ | watch _ | unwatch _ => exact Mailbox.spares_refl
  | act now => exact stepActor_spares now hreceiver
  | respond _ =>
    simp only [next, respond]
    split <;> exact Mailbox.spares_refl
  | explode =>
    simp only [next, Engine.explode]
    split
    · rw [dropCommand_actor]
      dsimp only
      rw [e.actor.handled_mailbox]
      exact Mailbox.spares_refl
    · exact Mailbox.spares_refl
  | shutdown _ =>
    simp only [next, shutdown]
    split
    · exact Mailbox.spares_refl
    · exact Mailbox.spares_join (hcloser rfl) (.send Command.shutdown)
  | close now => exact stepClosing_spares now (hcloser rfl)
  | abandonShutdown =>
    cases hclosing : e.closing with
    | sending deadline =>
      simp only [next, abandonShutdown, hclosing]
      exact Mailbox.spares_leave (hcloser rfl)
    | «open» | awaiting _ | joining _ | handedOver | patient | forcing | «over» =>
      simp only [next, abandonShutdown, hclosing]
      exact Mailbox.spares_refl

theorem length_eq_passes_add_shutdowns (l : List Command) :
    l.length = (l.filterMap Command.serial?).length + l.count .shutdown := by
  induction l with
  | nil => rfl
  | cons m l ih =>
    cases m with
    | pass serial =>
      have hne : Command.pass serial ≠ .shutdown := nofun
      rw [List.count_cons_of_ne hne]
      simp only [List.length_cons, List.filterMap_cons, Command.serial?]
      omega
    | shutdown =>
      rw [List.count_cons_self]
      simp only [List.length_cons, List.filterMap_cons, Command.serial?]
      omega

theorem Sound.held_length_le (h : e.Sound) : e.debouncer.held.length ≤ 1 := by
  rcases h.latest.held_eq with hheld | hheld <;> rw [hheld]
  · exact Nat.zero_le 1
  · exact le_rfl

/-- Only one pass and the shutdown can be in the mailbox. -/
theorem Sound.items_length_le (h : e.Sound) : e.actor.mailbox.items.length ≤ 2 := by
  have hsub : List.Sublist e.actor.mailbox.items e.actor.orders :=
    (List.sublist_append_right _ _).trans (List.sublist_append_right _ _)
  have hpasses : (e.actor.orders.filterMap Command.serial?).length ≤ 1 := by
    refine le_trans ?_ h.held_length_le
    rw [← h.carried, Engine.carried, List.length_append]
    exact Nat.le_add_right _ _
  have hall := length_eq_passes_add_shutdowns e.actor.orders
  have honce := h.once
  have hlength := hsub.length_le
  omega

structure Unhindered (e : Engine) : Prop where
  capacity : e.actor.mailbox.capacity = 4
  ready : ∀ serial, e.pump = .sending serial → e.actor.mailbox.IsReady pumpId

theorem Unhindered.stepPump (h : e.Unhindered) (hs : e.Sound) (now : Nat) :
    (e.stepPump now).Unhindered := by
  obtain ⟨hcapacity, hready⟩ := h
  unfold Engine.stepPump
  cases hpump : e.pump with
  | ended => exact ⟨hcapacity, hready⟩
  | asking =>
    dsimp only
    split
    · exact ⟨hcapacity, nofun⟩
    · refine ⟨hcapacity, fun _ _ => ⟨_, Mailbox.join_caller?_self ?_ _, nofun⟩⟩
      cases hcaller : e.actor.mailbox.caller? pumpId with
      | none => rfl
      | some x =>
        have hwant : e.actor.mailbox.want? pumpId = some x.want := by simp [Mailbox.want?, hcaller]
        obtain ⟨n, hn, -⟩ := hs.pump_errand hwant
        cases hpump.symm.trans hn
    · exact ⟨hcapacity, nofun⟩
  | sending serial =>
    have hcap := (e.actor.mailbox.step_capacity pumpId).trans hcapacity
    have hroom : e.actor.mailbox.items.length < e.actor.mailbox.capacity := by
      have hitems := hs.items_length_le
      omega
    have hstill := hready serial hpump
    obtain ⟨x, hx, -⟩ := hready serial hpump
    have hwant : e.actor.mailbox.want? pumpId = some x.want := by simp [Mailbox.want?, hx]
    obtain ⟨n, -, hsend⟩ := hs.pump_errand hwant
    have hstep := hstill.step hroom (hsend ▸ hwant)
    generalize e.actor.mailbox.step pumpId = r at hcap hstep
    obtain ⟨b, outcome⟩ := r
    cases outcome with
    | none => exact ⟨hcap, fun _ _ => hstep rfl⟩
    | some o => cases o <;> exact ⟨hcap, nofun⟩

theorem Move.pump_eq {e e' : Engine} {ev : Event} (hm : Move e ev e') (hev : ev.isPump = false) :
    e'.pump = e.pump := by
  cases hm.flow_turn with
  | shutdown _ _ hpump => exact hpump
  | stay hpump _ => exact hpump
  | pump hpump _ _ =>
    subst hpump
    cases hev

theorem Unhindered.next (h : e.Unhindered) (hs : e.Sound) (ev : Event) :
    (e.next ev).Unhindered := by
  cases hev : ev.isPump with
  | true =>
    cases ev with
    | pump now => exact h.stepPump hs now
    | mutate _ | storeRuntime _ | advanceRuntime | request | settled _ | watch _ | unwatch _ | act _
    | respond _ | explode | shutdown _ | close _ | abandonShutdown => cases hev
  | false =>
    have hspares : Mailbox.Spares pumpId e.actor.mailbox (e.next ev).actor.mailbox :=
      next_spares (by decide) (by simp [hev]) fun _ => by decide
    refine ⟨hspares.capacity.trans h.capacity, ?_⟩
    rw [(hs.next_move ev).pump_eq hev]
    exact fun serial hpump => hspares.isReady (h.ready serial hpump)

theorem start_unhindered (config : Config) (store : Store) (events : List Event) :
    ((start config store).after events).Unhindered := by
  induction events using List.reverseRecOn with
  | nil => exact ⟨rfl, nofun⟩
  | append_singleton events ev ih =>
    rw [after_concat]
    exact ih.next ((Sound.start config store).after events) ev

/-- Whatever else happens at an await point, it does not find a ticket with the pump. -/
theorem Unhindered.ticket_eq_none (h : e.Unhindered) {ev : Event} (hev : ev.isPump = false)
    (hyields : e.Yields ev) : e.pump.ticket? = none := by
  cases hpump : e.pump with
  | asking | ended => rfl
  | sending serial =>
    have hhands : e.handsOver = true := by
      simp [handsOver, hpump, Pump.ticket?, (h.ready serial hpump).canStep]
    cases hev.symm.trans (hyields.2 hhands)

end Engine

end Reconciliation
