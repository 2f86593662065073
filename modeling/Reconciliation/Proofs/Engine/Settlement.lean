import Reconciliation.Proofs.Deployment.Transcript
import Reconciliation.Proofs.Engine.Service

/-! # No change is lost

A change that comes while a pass is running marks it dirty. If no change has come since the pass
began, all that it has read is current, and so is the status that it publishes.
-/
namespace Reconciliation.Engine

/-- The board shows a status that covers every change made so far. -/
def Reflects (e : Engine) : Prop :=
  ∃ s, e.board.current = some s ∧ e.board.notice = .published s.pass ∧
    s.changeCount = e.changeCount

def Work.IsCurrent (e : Engine) : Work → Prop
  | .knowingRevision _ revision | .knowingRuntime _ revision _ => revision = e.runtime.revision
  | .deploying _ changeCount _ _ => changeCount = e.changeCount
  | .opening _ | .unpublishing | .tearingDown _ => True

structure UpToDate (e : Engine) : Prop where
  reading : e.debouncer.phase = .running false → ∀ w, e.work = some w → w.IsCurrent e
  settled : e.debouncer.phase = .idle → e.Reflects

namespace UpToDate

variable {e : Engine}

theorem start (config : Config) (store : Store) : UpToDate (Engine.start config store) := by
  constructor
  · intro hphase
    cases hphase
  · intro hphase
    cases hphase

theorem request (e : Engine) : UpToDate e.request.1 := by
  have hphase : e.request.1.debouncer.phase = e.debouncer.phase.requested :=
    e.debouncer.request_phase
  constructor
  · intro h
    rw [hphase] at h
    cases hp : e.debouncer.phase <;> rw [hp] at h <;> cases h
  · intro h
    rw [hphase] at h
    cases hp : e.debouncer.phase <;> rw [hp] at h <;> cases h

theorem with_debouncer (h : e.UpToDate) {d : Debouncer} {pump : Pump}
    {actor : Supervisor Command} (hphase : d.phase = e.debouncer.phase) :
    UpToDate { e with debouncer := d, pump, actor } :=
  ⟨fun hp => h.reading (hphase.symm.trans hp), fun hp => h.settled (hphase.symm.trans hp)⟩

theorem begin {d : Debouncer} {pump : Pump} {actor : Supervisor Command}
    (hwork : e.work = none) (hphase : d.phase = .running false) :
    UpToDate { e with debouncer := d, pump, actor } := by
  constructor
  · intro _ w hw
    cases hwork.symm.trans hw
  · intro hp
    cases hphase.symm.trans hp

theorem with_work (h : e.UpToDate) {w : Work} {live : LiveMap}
    (hcurrent : e.debouncer.phase = .running false → w.IsCurrent e) :
    UpToDate { e with live, work := some w } := by
  constructor
  · intro hp w' hw
    obtain rfl := Option.some.inj hw
    exact hcurrent hp
  · exact h.settled

/-- When a pass is over and nothing has changed since it began, its status says all. -/
theorem completePass (h : e.UpToDate) {serial changeCount : Nat} {resolution : Resolution}
    {run : Run} {dirty : Bool} (hrunning : e.debouncer.phase = .running dirty)
    (hwork : e.work = some (.deploying serial changeCount resolution run)) :
    UpToDate (e.completePass serial changeCount resolution run) := by
  have hphase : (e.completePass serial changeCount resolution run).debouncer.phase =
      (Phase.running dirty).returned := by
    rw [← hrunning]
    exact e.debouncer.giveBack_phase serial
  constructor
  · intro _ w hw
    cases hw
  · intro hp
    cases dirty with
    | true => cases hphase.symm.trans hp
    | false => exact ⟨_, rfl, rfl, h.reading hrunning _ hwork⟩

theorem pump_turn (h : e.UpToDate) (hs : e.InService) {e' : Engine} (ht : PumpTurn e e') :
    e'.UpToDate := by
  cases ht with
  | rest _ => exact h
  | look _ hphase => exact h.with_debouncer hphase
  | take _ hqueued hphase =>
    have hload := hs.load
    rw [hqueued, Phase.outstanding, Engine.load] at hload
    exact begin (hs.work_eq_none (by omega)) hphase
  | finish _ hclosed _ => exact absurd hclosed hs.phase_open
  | wait _ _ => exact h.with_debouncer rfl
  | leave _ _ => exact h.with_debouncer rfl
  | fail _ houtcome heffect => exact (hs.pump_not_refused houtcome heffect).elim

theorem actor_turn (h : e.UpToDate) (hs : e.InService) {e' : Engine} (ht : ActorTurn e e') :
    e'.UpToDate := by
  cases ht with
  | rest => exact h
  | launch _ | spawn _ | ready _ | ask _ | wait _ _ | take _ _ => exact h.with_debouncer rfl
  | @begin serial _ =>
    have hactor : UpToDate { e with actor := { e.actor with stage := .handling (.pass serial) } } :=
      h.with_debouncer rfl
    exact hactor.with_work fun _ => trivial
  | readRevision _ => exact h.with_work fun _ => rfl
  | readRuntime hwork =>
    apply h.with_work
    intro hp
    have hcurrent := h.reading hp _ hwork
    exact hcurrent
  | @readStore serial revision runtime hwork =>
    apply h.with_work
    intro hp
    have hrevision : revision = e.runtime.revision := h.reading hp _ hwork
    rw [Work.IsCurrent, hrevision]
    rfl
  | complete hstage hwork _ =>
    obtain ⟨dirty, hrunning⟩ := hs.running_of_handling hstage
    exact h.completePass hrunning hwork

theorem turn (h : e.UpToDate) (hs : e.InService) {e' : Engine} (ht : Turn e e') :
    e'.UpToDate := by
  cases ht with
  | rest => exact h
  | watch hcurrent hnotice =>
    refine ⟨h.reading, ?_⟩
    intro hp
    obtain ⟨s, hs, hn, hc⟩ := h.settled hp
    exact ⟨s, hcurrent.trans hs, hnotice.trans hn, hc⟩
  | @write store hstore p =>
    have hcount : ({ e with store, runtime := e.runtime.store p } : Engine).changeCount =
        e.changeCount := by
      simp only [changeCount, Store.changeCount, hstore]
      rfl
    constructor
    · intro hp w hw
      have hcurrent := h.reading hp w hw
      cases w with
      | deploying serial count resolution run => exact hcurrent.trans hcount.symm
      | _ => exact hcurrent
    · intro hp
      obtain ⟨s, hs, hn, hc⟩ := h.settled hp
      exact ⟨s, hs, hn, hc.trans hcount.symm⟩
  | change store runtime => exact request _
  | pump ht => exact h.pump_turn hs ht
  | actor ht => exact h.actor_turn hs ht
  | answer hwork response =>
    apply h.with_work
    intro hp
    have hcurrent := h.reading hp _ hwork
    exact hcurrent

end UpToDate

def after (e : Engine) (events : List Event) : Engine :=
  events.foldl next e

theorem after_append (e : Engine) (past events : List Event) :
    e.after (past ++ events) = (e.after past).after events :=
  List.foldl_append

theorem after_inService {e : Engine} (h : e.InService) {events : List Event}
    (hev : ∀ ev ∈ events, ev.IsOrdinary) : (e.after events).InService := by
  induction events generalizing e with
  | nil => exact h
  | cons ev events ih =>
    have ht := h.next_turn (hev ev List.mem_cons_self)
    exact ih (h.turn ht) fun ev hm => hev ev (List.mem_cons_of_mem _ hm)

theorem after_upToDate {e : Engine} (hs : e.InService) (h : e.UpToDate) {events : List Event}
    (hev : ∀ ev ∈ events, ev.IsOrdinary) :
    (e.after events).InService ∧ (e.after events).UpToDate := by
  induction events generalizing e with
  | nil => exact ⟨hs, h⟩
  | cons ev events ih =>
    have ht := hs.next_turn (hev ev List.mem_cons_self)
    exact ih (hs.turn ht) (h.turn hs ht) fun ev hm => hev ev (List.mem_cons_of_mem _ hm)

/-- A pass that has read the store makes its last call, whatever the container answers. Nothing else
changes on the way. -/
theorem deploying_exhausts {e : Engine} {serial changeCount : Nat} {resolution : Resolution}
    {run : Run} (hwork : e.work = some (.deploying serial changeCount resolution run))
    (responses : Nat → Response) : ∃ n live run', run'.call? = none ∧
      e.after ((List.range n).map fun i => .respond (responses i)) =
        { e with live, work := some (.deploying serial changeCount resolution run') } := by
  generalize hweight : run.weight = weight
  induction weight using Nat.strongRecOn generalizing e run responses with
  | _ weight ih =>
    subst hweight
    cases hcall : run.call? with
    | none =>
      refine ⟨0, e.live, run, hcall, ?_⟩
      rw [← hwork]
      rfl
    | some c =>
      have hrespond : e.respond (responses 0) = { e with
          live := (run.answer (responses 0)).live
          work := some (.deploying serial changeCount resolution (run.answer (responses 0))) } := by
        simp only [respond, hwork]
      obtain ⟨n, live, run', hend, hafter⟩ := ih _ (Run.weight_answer_lt hcall (responses 0))
        (e := e.respond (responses 0)) (by rw [hrespond]) (fun i => responses (i + 1)) rfl
      refine ⟨n + 1, live, run', hend, ?_⟩
      rw [List.range_succ_eq_map, List.map_cons, List.map_map]
      refine hafter.trans ?_
      rw [hrespond]

theorem eq_respond_of_mem {responses : Nat → Response} {n : Nat} {ev : Event}
    (h : ev ∈ (List.range n).map fun i => Event.respond (responses i)) :
    ∃ response, ev = .respond response := by
  obtain ⟨i, -, rfl⟩ := List.mem_map.1 h
  exact ⟨_, rfl⟩

theorem InService.next_completes {e : Engine} (h : e.InService) {serial changeCount : Nat}
    {resolution : Resolution} {run : Run}
    (hwork : e.work = some (.deploying serial changeCount resolution run))
    (hcall : run.call? = none) (now : Nat) :
    e.next (.act now) = e.completePass serial changeCount resolution run := by
  obtain ⟨-, k, hstage⟩ := h.work_isPass hwork
  simp [next, stepActor, Supervisor.canStep, stepWork, hstage, hwork, hcall, h.uncancelled]

theorem InService.deploying_completes {e : Engine} (h : e.InService) {serial changeCount : Nat}
    {resolution : Resolution} {run : Run}
    (hwork : e.work = some (.deploying serial changeCount resolution run))
    (responses : Nat → Response) (now : Nat) : ∃ n live run',
      e.after ((List.range n).map fun i => .respond (responses i)) =
        { e with live, work := some (.deploying serial changeCount resolution run') } ∧
      next { e with live, work := some (.deploying serial changeCount resolution run') }
          (.act now) =
        Engine.completePass
          { e with live, work := some (.deploying serial changeCount resolution run') }
          serial changeCount resolution run' := by
  obtain ⟨n, live, run', hcall, hafter⟩ := deploying_exhausts hwork responses
  have hs : InService { e with
      live, work := some (.deploying serial changeCount resolution run') } := by
    rw [← hafter]
    refine after_inService h fun ev hm => ?_
    obtain ⟨response, rfl⟩ := eq_respond_of_mem hm
    trivial
  exact ⟨n, live, run', hafter, hs.next_completes rfl hcall now⟩

/-- A pass that has read the store comes to its end, whatever the container answers. -/
theorem InService.deploying_ends {e : Engine} (h : e.InService) {serial changeCount : Nat}
    {resolution : Resolution} {run : Run}
    (hwork : e.work = some (.deploying serial changeCount resolution run))
    (responses : Nat → Response) (now : Nat) :
    ∃ n, (e.after (((List.range n).map fun i => .respond (responses i)) ++
      [.act now])).debouncer.phase = e.debouncer.phase.returned := by
  obtain ⟨n, live, run', hafter, hcomplete⟩ := h.deploying_completes hwork responses now
  refine ⟨n, ?_⟩
  rw [after_append, hafter]
  exact (congrArg (·.debouncer.phase) hcomplete).trans (e.debouncer.giveBack_phase serial)

theorem launch_eq_ok {config : Config} {store : Store} {executor : Bool} {e : Engine}
    (h : launch config store executor = .ok e) : ∃ config, e = start config store := by
  unfold launch at h
  split at h
  · cases h
  · rename_i config _
    split at h
    · exact ⟨config, (Except.ok.inj h).symm⟩
    · cases h

/-- Whatever happens to a launched engine short of a shutdown: if it is idle, the board shows a
status that covers every change, and if there is a change that the board does not show, a pass is
queued or running. -/
theorem launched_loses_no_change {config : Config} {store : Store} {executor : Bool} {e : Engine}
    (h : launch config store executor = .ok e) {events : List Event}
    (hev : ∀ ev ∈ events, ev.IsOrdinary) :
    ((e.after events).debouncer.phase = .idle → (e.after events).Reflects) ∧
    (¬ (e.after events).Reflects → (e.after events).debouncer.phase = .queued ∨
      ∃ dirty, (e.after events).debouncer.phase = .running dirty) := by
  obtain ⟨config, rfl⟩ := launch_eq_ok h
  obtain ⟨hs, hu⟩ := after_upToDate (.start config store) (.start config store) hev
  refine ⟨hu.settled, ?_⟩
  intro hr
  cases hp : ((start config store).after events).debouncer.phase with
  | idle => exact absurd (hu.settled hp) hr
  | queued => exact Or.inl rfl
  | running dirty => exact Or.inr ⟨dirty, rfl⟩
  | closed => exact absurd hp hs.phase_open

/-- The runtime properties are replaced before the first pass reads them. -/
def earlyReplacement : List Event :=
  [.storeRuntime .empty, .advanceRuntime, .pump 0, .pump 50, .pump 50, .pump 50] ++
    List.replicate 10 (.act 50)

theorem earlyReplacement_settles : ∃ e rest, launch .default (.empty 0) true = .ok e ∧
    (∀ ev ∈ earlyReplacement ++ rest, ev.IsOrdinary) ∧
    (e.after (earlyReplacement ++ rest)).debouncer.phase = .idle ∧
    (e.after (earlyReplacement ++ rest)).Reflects := by
  have hlaunch : launch .default (.empty 0) true = .ok (start .default (.empty 0)) := rfl
  have hearly : ∀ ev ∈ earlyReplacement, ev.IsOrdinary := by decide
  generalize hreached : (start .default (.empty 0)).after earlyReplacement = e
  have hs : e.InService := by
    rw [← hreached]
    exact (after_upToDate (.start _ _) (.start _ _) hearly).1
  have hwork : ∃ serial changeCount resolution run,
      e.work = some (.deploying serial changeCount resolution run) := by
    rw [← hreached]
    exact ⟨_, _, _, _, rfl⟩
  have hphase : e.debouncer.phase = .running false := by
    rw [← hreached]
    decide +kernel
  obtain ⟨serial, changeCount, resolution, run, hwork⟩ := hwork
  obtain ⟨n, hn⟩ := hs.deploying_ends hwork (fun _ => .ok 1) 50
  have hev : ∀ ev ∈ earlyReplacement ++
      (((List.range n).map fun _ => .respond (.ok 1)) ++ [.act 50]), ev.IsOrdinary := by
    intro ev hm
    rcases List.mem_append.1 hm with hm | hm
    · exact hearly ev hm
    · rcases List.mem_append.1 hm with hm | hm
      · obtain ⟨i, -, rfl⟩ := List.mem_map.1 hm
        trivial
      · obtain rfl := List.mem_singleton.1 hm
        trivial
  have hidle : ((start .default (.empty 0)).after (earlyReplacement ++
      (((List.range n).map fun _ => .respond (.ok 1)) ++ [.act 50]))).debouncer.phase = .idle := by
    rw [after_append, hreached, hn, hphase]
    rfl
  exact ⟨_, _, hlaunch, hev, hidle, (launched_loses_no_change hlaunch hev).1 hidle⟩

end Reconciliation.Engine
