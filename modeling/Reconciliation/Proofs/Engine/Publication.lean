import Reconciliation.Proofs.Engine.Reads

/-! # The history of published statuses

Tasks change places at await points only, so a pass reads its inputs at one moment. Its ticket is
the only one that is out until its status has been published.
-/
namespace Reconciliation.Engine

/-- A pass that has begun to read its inputs and has not read all of them. -/
def Work.isReading : Work → Bool
  | .knowingRevision _ _ | .knowingRuntime _ _ _ => true
  | _ => false

def Event.isAct : Event → Bool
  | .act _ => true
  | _ => false

def Event.isPump : Event → Bool
  | .pump _ => true
  | _ => false

def handsOver (e : Engine) : Bool :=
  e.pump.ticket?.isSome && e.actor.mailbox.canStep pumpId

/-- Nothing comes between the readings of a pass, and nothing while the pump goes on with a ticket. -/
def Yields (e : Engine) (ev : Event) : Prop :=
  (e.work.any Work.isReading = true → ev.isAct = true) ∧ (e.handsOver = true → ev.isPump = true)

/-- Tasks change places at await points only. -/
def Cooperative (e : Engine) (events : List Event) : Prop :=
  Follows next Yields e events

instance (e : Engine) (ev : Event) : Decidable (e.Yields ev) :=
  inferInstanceAs (Decidable (_ ∧ _))

instance (e : Engine) (events : List Event) : Decidable (e.Cooperative events) :=
  inferInstanceAs (Decidable (Follows next Yields e events))

def published (e e' : Engine) : List Status :=
  if e'.board.version = e.board.version then [] else e'.board.current.toList

def publications (e : Engine) (events : List Event) : List Status :=
  history next (fun e ev => published e (e.next ev)) e events

theorem publications_append (e : Engine) (events later : List Event) :
    e.publications (events ++ later) =
      e.publications events ++ (e.after events).publications later :=
  history_append next _ e events later

theorem publications_concat (e : Engine) (events : List Event) (ev : Event) :
    e.publications (events ++ [ev]) =
      e.publications events ++ published (e.after events) (e.after (events ++ [ev])) := by
  rw [after_concat]
  exact history_concat next _ e events ev

inductive PassTurn (e : Engine) (ev : Event) : Engine → Prop where
  | complete {serial changeCount : Nat} {resolution : Resolution} {run : Run}
      (hwork : e.work = some (.deploying serial changeCount resolution run)) :
      PassTurn e ev (e.completePass serial changeCount resolution run)
  | issue {e' : Engine} (hquiet : published e e' = []) (hqueued : e.debouncer.phase = .queued)
      (hpump : e.pump = .asking) (hissued : e'.debouncer.issued = e.debouncer.issued + 1)
      (hheld : e'.debouncer.held = e.debouncer.held ++ [e.debouncer.issued + 1]) : PassTurn e ev e'
  | lose {e' : Engine} {serial : Nat} (hquiet : published e e' = [])
      (hissued : e'.debouncer.issued = e.debouncer.issued)
      (hheld : e'.debouncer.held = e.debouncer.held.erase serial)
      (hclosed : e.debouncer.phase = .closed → e'.debouncer.phase = .closed)
      (hwhy : ev = .explode ∨ e.actor.cancelled = true ∨ e'.pump = .ended) : PassTurn e ev e'
  | stay {e' : Engine} (hquiet : published e e' = [])
      (hissued : e'.debouncer.issued = e.debouncer.issued)
      (hheld : e'.debouncer.held = e.debouncer.held)
      (hclosed : e.debouncer.phase = .closed → e'.debouncer.phase = .closed)
      (hended : e.pump = .ended → e'.pump = .ended) : PassTurn e ev e'

theorem published_of_version {e e' : Engine} (h : e'.board.version = e.board.version) :
    published e e' = [] :=
  if_pos h

theorem published_of_unpublish {e e' : Engine} (h : e'.board = e.board.unpublish) :
    published e e' = [] := by
  unfold published
  split
  · rfl
  · rw [h]
    rfl

theorem published_completePass (e : Engine) (serial changeCount : Nat) (resolution : Resolution)
    (run : Run) : published e (e.completePass serial changeCount resolution run) =
      [.ofResolution resolution changeCount serial] :=
  if_neg (Nat.succ_ne_self e.board.version)

theorem PassTurn.of_dropCommand {e : Engine} {ev : Event} {a : Supervisor Command} (m : Command)
    (hwhy : ev = .explode ∨ e.actor.cancelled = true) :
    PassTurn e ev (({ e with actor := a, work := none } : Engine).dropCommand m) := by
  cases m with
  | pass serial =>
    obtain ⟨hissued, hheld⟩ := e.debouncer.giveBack_tickets serial
    refine .lose (published_of_version rfl) hissued hheld ?_ (hwhy.imp_right Or.inl)
    intro hclosed
    exact (e.debouncer.giveBack_phase serial).trans (congrArg Phase.returned hclosed)
  | shutdown => exact .stay (published_of_version rfl) rfl rfl id id

theorem PassTurn.of_pump {e e' : Engine} {ev : Event} (ht : PumpTurn e e') : PassTurn e ev e' := by
  cases ht with
  | rest _ => exact .stay (published_of_version rfl) rfl rfl id id
  | look _ hphase hissued hheld =>
    exact .stay (published_of_version rfl) hissued hheld hphase.trans id
  | take hpump hqueued hphase hserial hissued hheld =>
    subst hserial
    exact .issue (published_of_version rfl) hqueued hpump hissued hheld
  | finish _ _ hphase hissued hheld =>
    exact .stay (published_of_version rfl) hissued hheld (fun _ => hphase) (fun _ => rfl)
  | wait _ _ => exact .stay (published_of_version rfl) rfl rfl id id
  | leave hpump _ =>
    refine .stay (published_of_version rfl) rfl rfl id ?_
    intro hended
    cases hpump.symm.trans hended
  | @fail b serial outcome _ _ _ =>
    obtain ⟨hissued, hheld⟩ := e.debouncer.giveBack_tickets serial
    refine .lose (published_of_version rfl) hissued hheld ?_ (Or.inr (Or.inr rfl))
    intro hclosed
    exact (e.debouncer.giveBack_phase serial).trans (congrArg Phase.returned hclosed)

theorem Move.pass_turn {e e' : Engine} {ev : Event} (hm : Move e ev e') : PassTurn e ev e' := by
  have hstay {e' : Engine} (hversion : e'.board.version = e.board.version)
      (hdebouncer : e'.debouncer = e.debouncer) (hpump : e'.pump = e.pump) : PassTurn e ev e' := by
    refine .stay (published_of_version hversion) ?_ ?_ ?_ ?_
    · rw [hdebouncer]
    · rw [hdebouncer]
    · rw [hdebouncer]
      exact id
    · rw [hpump]
      exact id
  cases hm with
  | rest | write _ _ | answer _ _ | answerTeardown _ _ | post _ _ | posted _ _
  | close _ _ _ _ _ _ => exact hstay rfl rfl rfl
  | watch _ _ hversion _ => exact hstay hversion rfl rfl
  | change _ _ =>
    obtain ⟨hissued, hheld⟩ := e.debouncer.request_tickets
    refine .stay (published_of_version rfl) hissued hheld ?_ id
    intro hclosed
    exact e.debouncer.request_phase.trans (congrArg Phase.requested hclosed)
  | pump ht => exact .of_pump ht
  | actor hm =>
    cases hm with
    | turn ht =>
      cases ht with
      | rest | launch _ | spawn _ | ready _ | ask _ | wait _ _ | take _ _ | begin _
      | readRevision _ | readRuntime _ | readStore _ => exact hstay rfl rfl rfl
      | complete _ hwork _ => exact .complete hwork
    | idle _ _ _ _ _ _ | beginTeardown _ | endTeardown _ _ => exact hstay rfl rfl rfl
    | cut hcancelled _ => exact .of_dropCommand _ (Or.inr hcancelled)
    | unpublish _ => exact .stay (published_of_unpublish rfl) rfl rfl id id
  | explode hev _ => exact .of_dropCommand _ (Or.inl hev)
  | shutdown _ _ => exact .stay (published_of_version rfl) rfl rfl (fun _ => rfl) id

/-- The ticket of the pass that is being worked on is the only one that is out. -/
theorem Sound.held_of_work {e : Engine} (h : e.Sound) {w : Work} {serial : Nat}
    (hwork : e.work = some w) (hserial : w.serial? = some serial) :
    e.debouncer.held = [serial] ∧ e.debouncer.issued = serial := by
  have horders := Supervisor.orders_of_taken (Or.inr (h.handling_pass hwork hserial))
  have hout : serial ∈ e.debouncer.held := by
    rw [← h.carried, Engine.carried, horders]
    exact List.mem_cons_self
  have hheld := h.latest.held_eq_singleton hout
  refine ⟨hheld, ?_⟩
  rcases h.latest.held_eq with hnone | hlatest
  · rw [hnone] at hout
    cases hout
  · exact List.singleton_inj.1 (hlatest.symm.trans hheld)

theorem Sound.published_eq {e e' : Engine} {ev : Event} (h : e.Sound) (hm : Move e ev e') :
    published e e' = [] ∨ ∃ serial changeCount resolution run,
      e.work = some (.deploying serial changeCount resolution run) ∧
      e' = e.completePass serial changeCount resolution run ∧
      e.debouncer.held = [serial] ∧ e.debouncer.issued = serial := by
  have hturn := hm.pass_turn
  cases hturn with
  | complete hwork =>
    obtain ⟨hheld, hissued⟩ := h.held_of_work hwork rfl
    exact Or.inr ⟨_, _, _, _, hwork, rfl, hheld, hissued⟩
  | issue hquiet _ _ _ _ => exact Or.inl hquiet
  | lose hquiet _ _ _ _ => exact Or.inl hquiet
  | stay hquiet _ _ _ _ => exact Or.inl hquiet

theorem Move.issued_le {e e' : Engine} {ev : Event} (hm : Move e ev e') :
    e.debouncer.issued ≤ e'.debouncer.issued := by
  have hturn := hm.pass_turn
  cases hturn with
  | @complete serial _ _ _ _ => exact (e.debouncer.giveBack_tickets serial).1.ge
  | issue _ _ _ hissued _ => omega
  | lose _ hissued _ _ _ => exact hissued.ge
  | stay _ hissued _ _ _ => exact hissued.ge

/-- Whatever is published from now on has the number of the last ticket or a later one. -/
theorem publications_ge {e : Engine} (h : e.Sound) (events : List Event) :
    e.debouncer.issued ≤ (e.after events).debouncer.issued ∧
      ∀ s ∈ e.publications events, e.debouncer.issued ≤ s.pass := by
  induction events using List.reverseRecOn with
  | nil => exact ⟨le_rfl, fun s hs => absurd hs List.not_mem_nil⟩
  | append_singleton events ev ih =>
    have hm := after_move h events ev
    refine ⟨ih.1.trans hm.issued_le, ?_⟩
    rw [publications_concat]
    intro s hs
    rcases List.mem_append.1 hs with hs | hs
    · exact ih.2 s hs
    · rcases (h.after events).published_eq hm with hnone | ⟨serial, _, _, _, _, he, -, hissued⟩
      · rw [hnone] at hs
        cases hs
      · rw [he, published_completePass, List.mem_singleton] at hs
        rw [hs]
        exact ih.1.trans hissued.le

theorem stepActor_inputs {e : Engine} (h : e.Sound) (now : Nat) :
    (e.stepActor now).store = e.store ∧ (e.stepActor now).runtime = e.runtime := by
  have hm := h.stepActor_move now
  generalize e.stepActor now = e' at hm
  cases hm with
  | turn ht => cases ht <;> exact ⟨rfl, rfl⟩
  | idle _ _ _ _ _ _ | beginTeardown _ | unpublish _ | endTeardown _ _ => exact ⟨rfl, rfl⟩
  | @cut m _ _ => cases m <;> exact ⟨rfl, rfl⟩

structure ComputedAt (e : Engine) (serial changeCount : Nat) (resolution : Resolution) : Prop where
  held : e.debouncer.held = [serial]
  resolution_eq : resolution = e.reconciler.run e.store.snapshot e.runtime.properties
  changeCount_eq : changeCount = e.changeCount

/-- What a pass knows, it has found at one moment, and nothing that is published tells of a later
one. -/
def Work.Current (e : Engine) (events : List Event) : Work → Prop
  | .knowingRevision _ revision => revision = (e.after events).runtime.revision
  | .knowingRuntime _ revision runtime => revision = (e.after events).runtime.revision ∧
      runtime = (e.after events).runtime.properties
  | .deploying serial changeCount resolution _ =>
      (∃ past, past <+: events ∧ (e.after past).ComputedAt serial changeCount resolution) ∧
        ∀ s ∈ e.publications events, s.changeCount ≤ changeCount
  | .opening _ | .unpublishing | .tearingDown _ => True

structure Published (e : Engine) (events : List Event) : Prop where
  work : ∀ w, (e.after events).work = some w → w.Current e events
  ordered : (e.publications events).Pairwise fun s t =>
    s.pass < t.pass ∧ s.changeCount ≤ t.changeCount
  passes : ∀ s ∈ e.publications events, s.pass ≤ (e.after events).debouncer.issued ∧
    s.pass ∉ (e.after events).debouncer.held
  counts : ∀ s ∈ e.publications events, s.changeCount ≤ (e.after events).changeCount

theorem inputs_of_reading {e : Engine} (h : e.Sound) {ev : Event} (hyields : e.Yields ev)
    {w : Work} (hwork : e.work = some w) (hreading : w.isReading = true) :
    (e.next ev).runtime = e.runtime := by
  have hact : ev.isAct = true := by
    apply hyields.1
    rw [hwork]
    exact hreading
  cases ev with
  | act now => exact (stepActor_inputs h now).2
  | mutate _ | storeRuntime _ | advanceRuntime | request | settled _ | watch _ | unwatch _ | pump _
  | respond _ | explode | shutdown _ | close _ | abandonShutdown => cases hact

theorem Work.current_concat {e : Engine} {events : List Event} {ev : Event} (hsound : e.Sound)
    (h : e.Published events) (hyields : (e.after events).Yields ev)
    (hpubs : e.publications (events ++ [ev]) = e.publications events) {w : Work}
    (hw : (e.after (events ++ [ev])).work = some w) : w.Current e (events ++ [ev]) := by
  have hs := hsound.after events
  have hlater : events <+: events ++ [ev] := List.prefix_append events [ev]
  have hturn := (after_move hsound events ev).work_turn
  have hkept : ∀ v, (e.after events).work = some v → v.isReading = true →
      (e.after (events ++ [ev])).runtime = (e.after events).runtime := by
    intro v hv hreading
    rw [after_concat]
    exact inputs_of_reading hs hyields hv hreading
  generalize hafter : e.after (events ++ [ev]) = e' at hturn hw hkept
  cases hturn with
  | stay hwork =>
    have hv := hwork.symm.trans hw
    have hcurrent := h.work w hv
    cases w with
    | opening _ | unpublishing | tearingDown _ => trivial
    | knowingRevision serial revision =>
      rw [Work.Current, hafter, hkept _ hv rfl]
      exact hcurrent
    | knowingRuntime serial revision runtime =>
      rw [Work.Current, hafter, hkept _ hv rfl]
      exact hcurrent
    | deploying serial changeCount resolution run =>
      obtain ⟨⟨past, hpast, hread⟩, hbelow⟩ := hcurrent
      exact ⟨⟨past, hpast.trans hlater, hread⟩, hpubs ▸ hbelow⟩
  | rest hwork => cases hwork.symm.trans hw
  | begin hwork =>
    obtain rfl := Option.some.inj (hwork.symm.trans hw)
    trivial
  | readRevision hv =>
    obtain rfl := Option.some.inj hw
    rw [Work.Current, hafter]
  | readRuntime hv =>
    obtain rfl := Option.some.inj hw
    have hrevision := h.work _ hv
    rw [Work.Current, hafter]
    exact ⟨hrevision, rfl⟩
  | readStore hv =>
    obtain rfl := Option.some.inj hw
    obtain ⟨rfl, rfl⟩ := h.work _ hv
    exact ⟨⟨events, hlater, (hs.held_of_work hv rfl).1, rfl, rfl⟩, hpubs ▸ h.counts⟩
  | answer hv hwork =>
    obtain rfl := Option.some.inj (hwork.symm.trans hw)
    obtain ⟨⟨past, hpast, hread⟩, hbelow⟩ := h.work _ hv
    exact ⟨⟨past, hpast.trans hlater, hread⟩, hpubs ▸ hbelow⟩
  | @teardown e' v hwork hserial =>
    obtain rfl := Option.some.inj (hwork.symm.trans hw)
    cases v with
    | unpublishing | tearingDown _ => trivial
    | opening _ | knowingRevision _ _ | knowingRuntime _ _ _ | deploying _ _ _ _ => cases hserial

theorem Published.passes_concat {e : Engine} {events : List Event} {ev : Event} (hsound : e.Sound)
    (h : e.Published events)
    (hquiet : published (e.after events) (e.after (events ++ [ev])) = []) :
    ∀ s ∈ e.publications events, s.pass ≤ (e.after (events ++ [ev])).debouncer.issued ∧
      s.pass ∉ (e.after (events ++ [ev])).debouncer.held := by
  intro s hs
  obtain ⟨hle, hne⟩ := h.passes s hs
  have hturn := (after_move hsound events ev).pass_turn
  generalize e.after (events ++ [ev]) = e' at hturn hquiet
  cases hturn with
  | complete _ =>
    rw [published_completePass] at hquiet
    cases hquiet
  | issue _ _ _ hissued hheld =>
    rw [hissued, hheld, List.mem_append, List.mem_singleton]
    refine ⟨by omega, not_or.2 ⟨hne, by omega⟩⟩
  | lose _ hissued hheld _ _ =>
    rw [hissued, hheld]
    exact ⟨hle, fun hm => hne (List.mem_of_mem_erase hm)⟩
  | stay _ hissued hheld _ _ =>
    rw [hissued, hheld]
    exact ⟨hle, hne⟩

theorem Published.concat {e : Engine} {events : List Event} {ev : Event} (hsound : e.Sound)
    (h : e.Published events) (hyields : (e.after events).Yields ev) :
    e.Published (events ++ [ev]) := by
  have hs := hsound.after events
  have hm := after_move hsound events ev
  have hinputs := after_inputs hsound (List.prefix_append events [ev])
  have hcounts : (e.after events).changeCount ≤ (e.after (events ++ [ev])).changeCount :=
    Nat.add_le_add hinputs.1.changeCount_le hinputs.2.1
  have hpubs := publications_concat e events ev
  rcases hs.published_eq hm with hquiet | ⟨serial, changeCount, resolution, run, hwork, he, hheld,
    hissued⟩
  · have hpasses := h.passes_concat hsound hquiet
    rw [hquiet, List.append_nil] at hpubs
    constructor
    · exact fun w hw => Work.current_concat hsound h hyields hpubs hw
    · rw [hpubs]
      exact h.ordered
    · rw [hpubs]
      exact hpasses
    · rw [hpubs]
      exact fun s hs => (h.counts s hs).trans hcounts
  · rw [he, published_completePass] at hpubs
    obtain ⟨⟨past, hpast, hread⟩, hbelow⟩ := h.work _ hwork
    have htickets := (e.after events).debouncer.giveBack_tickets serial
    have hnone : (e.after (events ++ [ev])).debouncer.held = [] := by
      rw [he]
      refine htickets.2.trans ?_
      rw [hheld, List.erase_cons_head]
    constructor
    · intro w hw
      rw [he] at hw
      cases hw
    · rw [hpubs, List.pairwise_append]
      refine ⟨h.ordered, List.pairwise_singleton _ _, ?_⟩
      intro s hs t ht
      obtain rfl := List.mem_singleton.1 ht
      obtain ⟨hle, hne⟩ := h.passes s hs
      rw [hheld, List.mem_singleton] at hne
      exact ⟨lt_of_le_of_ne (hissued ▸ hle) hne, hbelow s hs⟩
    · rw [hpubs, hnone]
      intro s hs
      refine ⟨?_, List.not_mem_nil⟩
      rw [he]
      refine le_trans ?_ htickets.1.ge
      rcases List.mem_append.1 hs with hs | hs
      · exact (h.passes s hs).1
      · rw [List.mem_singleton.1 hs]
        exact hissued.ge
    · rw [hpubs]
      intro s hs
      refine le_trans ?_ hcounts
      rcases List.mem_append.1 hs with hs | hs
      · exact h.counts s hs
      · have hsince := after_inputs hsound hpast
        rw [List.mem_singleton.1 hs]
        exact hread.changeCount_eq.trans_le
          (Nat.add_le_add hsince.1.changeCount_le hsince.2.1)

theorem start_published (config : Config) (store : Store) {events : List Event}
    (h : (start config store).Cooperative events) : (start config store).Published events := by
  have hsound := Sound.start config store
  induction events using List.reverseRecOn with
  | nil => exact ⟨nofun, .nil, nofun, nofun⟩
  | append_singleton events ev ih =>
    obtain ⟨hevents, hyields⟩ := follows_concat.1 h
    exact (ih hevents).concat hsound hyields

/-- The passes that have published, and the one that is out, are all that there were, unless there
will be none any more. -/
def Consecutive (e : Engine) (passes : List Nat) : Prop :=
  passes ++ e.debouncer.held = List.range' 1 e.debouncer.issued ∨
    e.debouncer.held = [] ∧ (e.debouncer.phase = .closed ∨ e.pump = .ended)

theorem Consecutive.move {e e' : Engine} {ev : Event} {passes : List Nat} (hs : e.Sound)
    (h : e.Consecutive passes) (hev : ev ≠ .explode) (hm : Move e ev e') :
    e'.Consecutive (passes ++ (published e e').map Status.pass) := by
  have hturn := hm.pass_turn
  cases hturn with
  | @complete serial _ _ _ hwork =>
    obtain ⟨hheld, -⟩ := hs.held_of_work hwork rfl
    obtain ⟨hissued', hheld'⟩ := e.debouncer.giveBack_tickets serial
    have hnone : (e.debouncer.giveBack serial).held = [] := by
      rw [hheld', hheld, List.erase_cons_head]
    rw [published_completePass]
    left
    refine (congrArg (passes ++ [serial] ++ ·) hnone).trans ?_
    rcases h with h | ⟨hheld'', -⟩
    · rw [hheld] at h
      rw [List.append_nil, h]
      exact congrArg (List.range' 1) hissued'.symm
    · cases hheld.symm.trans hheld''
  | issue hquiet hqueued hpump hissued hheld =>
    have hnone : e.debouncer.held = [] := by
      have hlatest := hs.latest
      rwa [Debouncer.HoldsLatest, hqueued] at hlatest
    rw [hquiet, List.map_nil, List.append_nil]
    rcases h with h | ⟨-, hphase | hended⟩
    · left
      rw [hnone, List.append_nil] at h
      rw [hheld, hissued, hnone, h, List.range'_1_concat, Nat.add_comm 1]
      rfl
    · cases hqueued.symm.trans hphase
    · cases hpump.symm.trans hended
  | @lose e' serial hquiet hissued hheld hclosed hwhy =>
    have hdone : e'.debouncer.phase = .closed ∨ e'.pump = .ended := by
      rcases hwhy with hexplode | hcancelled | hended
      · exact absurd hexplode hev
      · left
        apply hclosed
        apply hs.shut
        cases hopen : e.closed with
        | true => rfl
        | false => cases hcancelled.symm.trans (hs.unshut hopen).2
      · exact Or.inr hended
    rw [hquiet, List.map_nil, List.append_nil]
    by_cases hout : serial ∈ e.debouncer.held
    · rw [hs.latest.held_eq_singleton hout, List.erase_cons_head] at hheld
      exact Or.inr ⟨hheld, hdone⟩
    · rw [List.erase_of_not_mem hout] at hheld
      rcases h with h | ⟨hnone, -⟩
      · left
        rw [hheld, hissued]
        exact h
      · exact Or.inr ⟨hheld.trans hnone, hdone⟩
  | stay hquiet hissued hheld hclosed hended =>
    rw [hquiet, List.map_nil, List.append_nil]
    rcases h with h | ⟨hnone, hdone⟩
    · left
      rw [hheld, hissued]
      exact h
    · exact Or.inr ⟨hheld.trans hnone, hdone.imp hclosed hended⟩

theorem after_consecutive (config : Config) (store : Store) {events : List Event}
    (hev : .explode ∉ events) : ((start config store).after events).Consecutive
      (((start config store).publications events).map Status.pass) := by
  have hsound := Sound.start config store
  induction events using List.reverseRecOn with
  | nil => exact Or.inl rfl
  | append_singleton events ev ih =>
    rw [List.mem_append, not_or] at hev
    have hne : ev ≠ .explode := fun h => hev.2 (h ▸ List.mem_singleton_self _)
    rw [publications_concat, List.map_append]
    exact (ih hev.1).move (hsound.after events) hne (after_move hsound events ev)

/-- What can be said of the statuses that are published with these events. `past` and `later` are
parts of them in their order. -/
structure PublishesInOrder (e : Engine) (events : List Event) : Prop where
  /-- Pass numbers increase, and change counts never decrease. -/
  ordered : (e.publications events).Pairwise fun s t =>
    s.pass < t.pass ∧ s.changeCount ≤ t.changeCount
  /-- A status is published by the pass under the ticket with its number, and was computed from all
  that was current at one moment while this ticket was out. -/
  computed : ∀ past ev later s, events = past ++ ev :: later →
    s ∈ published (e.after past) (e.after (past ++ [ev])) →
    (e.after past).actor.stage = .handling (.pass s.pass) ∧
    (e.after past).debouncer.held = [s.pass] ∧
    ∃ read, read <+: past ∧ (e.after read).debouncer.held = [s.pass] ∧
      s = .ofResolution
        (e.reconciler.run (e.after read).store.snapshot (e.after read).runtime.properties)
        ((e.after read).store.changeCount + (e.after read).runtime.revision) s.pass
  /-- While a pass is at work, all that earlier passes publish has been published. -/
  exclusive : ∀ past later w n, events = past ++ later → (e.after past).work = some w →
    w.serial? = some n → (∀ s ∈ e.publications past, s.pass < n) ∧
      ∀ s ∈ (e.after past).publications later, n ≤ s.pass
  /-- And they have all published something, unless one of them has panicked. -/
  gapless : ∀ past later w n, events = past ++ later → (e.after past).work = some w →
    w.serial? = some n → .explode ∉ past →
    (e.publications past).map Status.pass ++ [n] = List.range' 1 n

theorem launched_publishes_in_order {config : Config} {store : Store} {executor : Bool}
    {e : Engine} (h : launch config store executor = .ok e) {events : List Event}
    (hcooperative : e.Cooperative events) : e.PublishesInOrder events := by
  obtain ⟨config, rfl⟩ := launch_eq_ok h
  have hsound := Sound.start config store
  have hpast {past later : List Event} (hevents : events = past ++ later) :
      (start config store).Published past := by
    rw [hevents] at hcooperative
    exact start_published config store (follows_append.1 hcooperative).1
  constructor
  · exact (start_published config store hcooperative).ordered
  · intro past ev later s hevents hs
    have hsoundPast := hsound.after past
    rcases hsoundPast.published_eq (after_move hsound past ev) with hquiet |
      ⟨serial, changeCount, resolution, run, hwork, he, hheld, -⟩
    · rw [hquiet] at hs
      cases hs
    · rw [he, published_completePass] at hs
      obtain rfl := List.mem_singleton.1 hs
      obtain ⟨⟨read, hread, hcomputed⟩, -⟩ := (hpast hevents).work _ hwork
      refine ⟨hsoundPast.handling_pass hwork rfl, hheld, read, hread, hcomputed.held, ?_⟩
      have hreconciler := (after_inputs hsound (List.nil_prefix (l := read))).2.2
      rw [hcomputed.resolution_eq, hcomputed.changeCount_eq, hreconciler]
      rfl
  · intro past later w n hevents hwork hserial
    obtain ⟨hheld, hissued⟩ := (hsound.after past).held_of_work hwork hserial
    constructor
    · intro s hs
      obtain ⟨hle, hne⟩ := (hpast hevents).passes s hs
      rw [hheld, List.mem_singleton] at hne
      exact lt_of_le_of_ne (hissued ▸ hle) hne
    · intro s hs
      exact hissued.ge.trans ((publications_ge (hsound.after past) later).2 s hs)
  · intro past later w n hevents hwork hserial hexplode
    obtain ⟨hheld, hissued⟩ := (hsound.after past).held_of_work hwork hserial
    rcases after_consecutive config store hexplode with hall | ⟨hnone, -⟩
    · rwa [hheld, hissued] at hall
    · cases hheld.symm.trans hnone

/-- Answers of the container publish nothing, and disturb nobody who must not be disturbed. -/
theorem responses_quiet {e : Engine} {serial changeCount : Nat} {resolution : Resolution} {run : Run}
    (hwork : e.work = some (.deploying serial changeCount resolution run))
    (hhands : e.handsOver = false) {events : List Event}
    (hev : ∀ ev ∈ events, ∃ response, ev = .respond response) :
    e.Cooperative events ∧ e.publications events = [] := by
  induction events generalizing e run with
  | nil => exact ⟨trivial, rfl⟩
  | cons ev events ih =>
    obtain ⟨response, rfl⟩ := hev ev List.mem_cons_self
    have hnext : e.next (.respond response) = { e with
        live := (run.answer response).live
        work := some (.deploying serial changeCount resolution (run.answer response)) } := by
      simp only [next, respond, hwork]
    have hwork' : (e.next (.respond response)).work =
        some (.deploying serial changeCount resolution (run.answer response)) := by rw [hnext]
    have hhands' : (e.next (.respond response)).handsOver = false := by
      rw [hnext]
      exact hhands
    obtain ⟨hcooperative, hquiet⟩ := ih hwork' hhands' fun ev hm => hev ev (List.mem_cons_of_mem _ hm)
    have hreading : e.work.any Work.isReading = false := by
      rw [hwork]
      rfl
    refine ⟨⟨⟨?_, ?_⟩, hcooperative⟩, ?_⟩
    · simp [hreading]
    · simp [hhands]
    · have hboard : published e (e.next (.respond response)) = [] :=
        published_of_version (by rw [hnext])
      rw [publications, history, hboard]
      exact hquiet

theorem earlyReplacement_published : ∃ e rest s, launch .default (.empty 0) true = .ok e ∧
    e.Cooperative (earlyReplacement ++ rest) ∧ e.PublishesInOrder (earlyReplacement ++ rest) ∧
    e.publications (earlyReplacement ++ rest) = [s] := by
  have hlaunch : launch .default (.empty 0) true = .ok (start .default (.empty 0)) := rfl
  have hearly : (start .default (.empty 0)).Cooperative earlyReplacement := by decide +kernel
  have hquiet : (start .default (.empty 0)).publications earlyReplacement = [] := by decide +kernel
  generalize hreached : (start .default (.empty 0)).after earlyReplacement = e
  have hs : e.InService := by
    rw [← hreached]
    exact after_inService (.start _ _) (by decide)
  have hhands : e.handsOver = false := by
    rw [← hreached]
    decide +kernel
  have hwork : ∃ serial changeCount resolution run,
      e.work = some (.deploying serial changeCount resolution run) := by
    rw [← hreached]
    exact ⟨_, _, _, _, rfl⟩
  obtain ⟨serial, changeCount, resolution, run, hwork⟩ := hwork
  obtain ⟨n, live, run', hafter, hcomplete⟩ := hs.deploying_completes hwork (fun _ => .ok 1) 50
  obtain ⟨hcooperative, hnone⟩ := responses_quiet hwork hhands fun ev hm => eq_respond_of_mem hm
  have hall : (start .default (.empty 0)).Cooperative (earlyReplacement ++
      (((List.range n).map fun _ => .respond (.ok 1)) ++ [.act 50])) := by
    refine follows_append.2 ⟨hearly, ?_⟩
    rw [← after, hreached]
    refine follows_concat.2 ⟨hcooperative, ?_⟩
    rw [← after, hafter]
    exact ⟨nofun, fun hh => absurd (hhands.symm.trans hh) nofun⟩
  refine ⟨_, _, .ofResolution resolution changeCount serial, hlaunch, hall,
    launched_publishes_in_order hlaunch hall, ?_⟩
  rw [publications_append, hquiet, hreached, publications_concat, hnone, after_concat, hafter,
    hcomplete, published_completePass]
  rfl

end Reconciliation.Engine
