import Reconciliation.Proofs.Deployment.Course
import Reconciliation.Proofs.Engine.Finality

/-! # Everything that is live is destroyed in the end

The live map is that of the run at hand. A path leaves it when its destruction has succeeded, and a
teardown has an errand for every path that is live when it begins.
-/
namespace Reconciliation

def Transcript.Destroys (log : Transcript) (p : String) : Prop :=
  ∃ x ∈ log, ∃ handle, x.call = .destroy p handle

namespace Transcript.Destroys

variable {log : Transcript} {p : String}

theorem append_right (h : log.Destroys p) (later : Transcript) : Destroys (log ++ later) p := by
  obtain ⟨x, hx, hcall⟩ := h
  exact ⟨x, List.mem_append_left later hx, hcall⟩

theorem of_last {handle : Nat} {response : Response} (log : Transcript) :
    Destroys (log ++ [⟨.destroy p handle, response⟩]) p :=
  ⟨_, List.mem_append_right log List.mem_cons_self, handle, rfl⟩

end Transcript.Destroys

namespace Run

variable {r : Run} {p : String}

theorem answer_of_call?_eq_none (h : r.call? = none) (response : Response) :
    r.answer response = r := by
  unfold answer
  split
  · rfl
  · rename_i t rest hdue
    rw [call?, hdue] at h
    have hcall : t.call? r.live = none := h
    rw [hcall]

theorem live_answer (hlive : (r.live.get? p).isSome = true) (response : Response) :
    ((r.answer response).live.get? p).isSome = true ∨ ∃ handle, r.call? = some (.destroy p handle) := by
  cases hcall : r.call? with
  | none =>
    rw [answer_of_call?_eq_none hcall]
    exact Or.inl hlive
  | some c =>
    obtain ⟨_, _, _, -, -, -, hanswer⟩ := of_call? hcall
    rw [hanswer, LiveMap.get?_after]
    by_cases hp : c.path = p
    · rw [if_pos hp]
      cases response with
      | error _ => exact Or.inl hlive
      | ok number =>
        cases c with
        | create _ _ | reload _ _ _ => exact Or.inl rfl
        | destroy q handle =>
          obtain rfl : q = p := hp
          exact Or.inr ⟨handle, rfl⟩
    · rw [if_neg hp]
      exact Or.inl hlive

def Retires (r : Run) : Prop :=
  ∀ t ∈ r.agenda, ∃ q, t = .retire q

theorem retires_teardown (live : LiveMap) : (teardown live).Retires := by
  intro t ht
  obtain ⟨q, -, rfl⟩ := List.mem_map.1 ht
  exact ⟨q, rfl⟩

theorem mem_teardown {live : LiveMap} (hlive : (live.get? p).isSome = true) :
    .retire p ∈ (teardown live).agenda :=
  List.mem_map_of_mem (Dictionary.mem_keys_iff.2 hlive)

theorem Retires.answer_agenda (h : r.Retires) {c : Call} (hcall : r.call? = some c)
    (response : Response) : ∃ idle t rest, r.agenda = idle ++ t :: rest ∧
      (∀ u ∈ idle, u.call? r.live = none) ∧ t.call? r.live = some c ∧
      (r.answer response).agenda = rest := by
  obtain ⟨idle, t, rest, hagenda, hidle, ht, hanswer⟩ := of_call? hcall
  refine ⟨idle, t, rest, hagenda, hidle, ht, ?_⟩
  obtain ⟨q, rfl⟩ := h t (hagenda ▸ List.mem_append_right idle List.mem_cons_self)
  rw [hanswer]
  cases response <;> rfl

theorem Retires.answer (h : r.Retires) (response : Response) : (r.answer response).Retires := by
  cases hcall : r.call? with
  | none => rwa [answer_of_call?_eq_none hcall]
  | some c =>
    obtain ⟨idle, t, rest, hagenda, -, -, hrest⟩ := h.answer_agenda hcall response
    intro u hu
    rw [hrest] at hu
    exact h u (hagenda ▸ List.mem_append_right idle (List.mem_cons_of_mem t hu))

theorem Retires.errand_answer (h : r.Retires) (hlive : (r.live.get? p).isSome = true)
    (hp : .retire p ∈ r.agenda) (response : Response) :
    .retire p ∈ (r.answer response).agenda ∨ ∃ handle, r.call? = some (.destroy p handle) := by
  cases hcall : r.call? with
  | none =>
    rw [answer_of_call?_eq_none hcall]
    exact Or.inl hp
  | some c =>
    obtain ⟨idle, t, rest, hagenda, hidle, ht, hrest⟩ := h.answer_agenda hcall response
    obtain ⟨x, hx⟩ := Option.isSome_iff_exists.1 hlive
    have hdestroy : (Task.retire p).call? r.live = some (.destroy p x.handle) := by
      rw [Task.call?, hx, Option.map_some]
    rw [hagenda, List.mem_append, List.mem_cons] at hp
    rcases hp with hp | rfl | hp
    · cases (hidle _ hp).symm.trans hdestroy
    · exact Or.inr ⟨x.handle, ht.symm.trans hdestroy⟩
    · exact Or.inl (hrest ▸ hp)

theorem not_live_of_errand (h : r.call? = none) (hp : .retire p ∈ r.agenda) :
    (r.live.get? p).isSome = false := by
  have hnone := agenda_of_call?_eq_none h _ hp
  rw [Task.call?, Option.map_eq_none_iff] at hnone
  rw [hnone]
  rfl

end Run

namespace Engine

def answered (e : Engine) : Event → Transcript
  | .respond response => (e.call?.map fun c => ⟨c, response⟩).toList
  | _ => []

def exchanges (e : Engine) (events : List Event) : Transcript :=
  history next answered e events

theorem exchanges_concat (e : Engine) (events : List Event) (ev : Event) :
    e.exchanges (events ++ [ev]) = e.exchanges events ++ (e.after events).answered ev :=
  history_concat next answered e events ev

structure Tracks (e : Engine) : Prop where
  deploying : ∀ serial changeCount resolution run,
    e.work = some (.deploying serial changeCount resolution run) →
      run.live = e.live ∧ run.forgets = false
  tearing : ∀ run, e.work = some (.tearingDown run) → run.live = e.live ∧ run.Retires

theorem Tracks.move {e e' : Engine} {ev : Event} (h : e.Tracks) (hm : Move e ev e') : e'.Tracks := by
  cases hm with
  | rest | watch _ _ _ _ | write _ _ | change _ _ | shutdown _ _ | post _ _ | posted _ _
  | close _ _ _ _ _ _ => exact ⟨h.deploying, h.tearing⟩
  | pump ht _ => cases ht <;> exact ⟨h.deploying, h.tearing⟩
  | actor hm =>
    cases hm with
    | turn ht =>
      cases ht with
      | rest | launch _ | spawn _ | ready _ | ask _ | wait _ _ | take _ _ =>
        exact ⟨h.deploying, h.tearing⟩
      | begin _ | readRevision _ | readRuntime _ | complete _ _ _ => exact ⟨nofun, nofun⟩
      | readStore _ =>
        refine ⟨?_, nofun⟩
        rintro _ _ _ _ ⟨⟩
        exact ⟨rfl, rfl⟩
    | idle _ _ _ _ _ _ => exact ⟨h.deploying, h.tearing⟩
    | @cut m _ _ => cases m <;> exact ⟨nofun, nofun⟩
    | beginTeardown _ | endTeardown _ _ => exact ⟨nofun, nofun⟩
    | unpublish _ =>
      refine ⟨nofun, ?_⟩
      rintro _ ⟨⟩
      exact ⟨rfl, Run.retires_teardown e.live⟩
  | answer hwork response =>
    refine ⟨?_, nofun⟩
    rintro _ _ _ _ ⟨⟩
    exact ⟨rfl, (answer_forgets _ response).trans (h.deploying _ _ _ _ hwork).2⟩
  | answerTeardown hwork response =>
    refine ⟨nofun, ?_⟩
    rintro _ ⟨⟩
    exact ⟨rfl, (h.tearing _ hwork).2.answer response⟩
  | @explode m _ _ => cases m <;> exact ⟨nofun, nofun⟩

structure Pursues (e : Engine) (p : String) (log : Transcript) : Prop where
  live : (e.live.get? p).isSome = true ∨ log.Destroys p
  tearing : ∀ run, e.work = some (.tearingDown run) → .retire p ∈ run.agenda ∨ log.Destroys p

namespace Pursues

variable {e e' : Engine} {p : String} {log : Transcript}

theorem append_right (h : e.Pursues p log) (later : Transcript) : e.Pursues p (log ++ later) :=
  ⟨h.live.imp_right (·.append_right later),
    fun run hwork => (h.tearing run hwork).imp_right (·.append_right later)⟩

theorem of_destroys (h : log.Destroys p) : e.Pursues p log :=
  ⟨Or.inr h, fun _ _ => Or.inr h⟩

theorem of_live (hlive : (e.live.get? p).isSome = true ∨ log.Destroys p)
    (hwork : ∀ run, e.work ≠ some (.tearingDown run)) : e.Pursues p log :=
  ⟨hlive, fun run h => absurd h (hwork run)⟩

theorem answer (h : e.Pursues p log) (ht : e.Tracks) {serial changeCount : Nat}
    {resolution : Resolution} {run : Run}
    (hwork : e.work = some (.deploying serial changeCount resolution run)) (response : Response) :
    Pursues { e with
      live := (run.answer response).live
      work := some (.deploying serial changeCount resolution (run.answer response)) } p
      (log ++ e.answered (.respond response)) := by
  rcases h.live with hlive | hlog
  · rw [← (ht.deploying _ _ _ _ hwork).1] at hlive
    rcases run.live_answer hlive response with hlive | ⟨handle, hcall⟩
    · exact of_live (Or.inl hlive) nofun
    · have hcall : e.call? = some (.destroy p handle) := by simp only [call?, hwork, hcall]
      rw [answered, hcall]
      exact of_destroys (.of_last log)
  · exact of_destroys (hlog.append_right _)

theorem answerTeardown (h : e.Pursues p log) (ht : e.Tracks) {run : Run}
    (hwork : e.work = some (.tearingDown run)) (response : Response) :
    Pursues { e with
      live := (run.answer response).live
      work := some (.tearingDown (run.answer response)) } p
      (log ++ e.answered (.respond response)) := by
  obtain ⟨hrun, hretires⟩ := ht.tearing _ hwork
  have hdestroy {handle : Nat} (hcall : run.call? = some (.destroy p handle)) :
      Transcript.Destroys (log ++ e.answered (.respond response)) p := by
    have hcall : e.call? = some (.destroy p handle) := by simp only [call?, hwork, hcall]
    rw [answered, hcall]
    exact .of_last log
  rcases h.live with hlive | hlog
  · rcases h.tearing _ hwork with hp | hlog
    · rw [← hrun] at hlive
      rcases hretires.errand_answer hlive hp response with hp | ⟨handle, hcall⟩
      · rcases run.live_answer hlive response with hlive | ⟨handle, hcall⟩
        · refine ⟨Or.inl hlive, ?_⟩
          rintro _ ⟨⟩
          exact Or.inl hp
        · exact of_destroys (hdestroy hcall)
      · exact of_destroys (hdestroy hcall)
    · exact of_destroys (hlog.append_right _)
  · exact of_destroys (hlog.append_right _)

/-- A teardown is not over before everything has been destroyed. -/
theorem destroys_of_ended (h : e.Pursues p log) (ht : e.Tracks) {run : Run}
    (hwork : e.work = some (.tearingDown run)) (hcall : run.call? = none) : log.Destroys p := by
  rcases h.tearing run hwork with hp | hlog
  · have hdead := Run.not_live_of_errand hcall hp
    rw [(ht.tearing run hwork).1] at hdead
    exact h.live.resolve_left (by simp [hdead])
  · exact hlog

theorem actor_move (h : e.Pursues p log) (ht : e.Tracks) (hm : ActorMove e e') :
    e'.Pursues p log := by
  cases hm with
  | turn hturn =>
    cases hturn with
    | rest | launch _ | spawn _ | ready _ | ask _ | wait _ _ | take _ _ => exact ⟨h.live, h.tearing⟩
    | begin _ | readRevision _ | readRuntime _ | readStore _ =>
      exact of_live h.live fun _ hwork => by cases hwork
    | @complete _ serial changeCount resolution run _ hwork _ =>
      obtain ⟨hrun, hforgets⟩ := ht.deploying _ _ _ _ hwork
      have hfinal : (e.completePass serial changeCount resolution run).live = e.live := by
        simp [completePass, giveBack, Run.finalLive, hforgets, hrun]
      refine of_live ?_ fun _ hwork => by cases hwork
      rw [hfinal]
      exact h.live
  | idle _ _ _ _ _ _ => exact ⟨h.live, h.tearing⟩
  | @cut m _ _ => cases m <;> exact of_live h.live fun _ hwork => by cases hwork
  | beginTeardown _ => exact of_live h.live fun _ hwork => by cases hwork
  | unpublish _ =>
    refine ⟨h.live, ?_⟩
    rintro _ ⟨⟩
    exact h.live.imp_left Run.mem_teardown
  | endTeardown hwork hcall => exact of_destroys (h.destroys_of_ended ht hwork hcall)

theorem move (h : e.Pursues p log) (ht : e.Tracks) {ev : Event} (hm : Move e ev e') :
    e'.Pursues p (log ++ e.answered ev) := by
  have hlog := h.append_right (e.answered ev)
  cases hm with
  | rest | watch _ _ _ _ | write _ _ | change _ _ | shutdown _ _ | post _ _ | posted _ _
  | close _ _ _ _ _ _ => exact ⟨hlog.live, hlog.tearing⟩
  | pump hturn _ => cases hturn <;> exact ⟨hlog.live, hlog.tearing⟩
  | actor hm => exact hlog.actor_move ht hm
  | answer hwork response hev =>
    subst hev
    exact h.answer ht hwork response
  | answerTeardown hwork response hev =>
    subst hev
    exact h.answerTeardown ht hwork response
  | @explode m _ _ => cases m <;> exact of_live hlog.live nofun

end Pursues

theorem Tracks.after {e : Engine} (h : e.Tracks) (hs : e.Sound) (events : List Event) :
    (e.after events).Tracks := by
  induction events generalizing e with
  | nil => exact h
  | cons ev events ih => exact ih (h.move (hs.next_move ev)) (hs.next ev)

theorem start_tracks (config : Config) (store : Store) : (start config store).Tracks :=
  ⟨nofun, nofun⟩

theorem Tracks.pursues {e : Engine} (h : e.Tracks) (hs : e.Sound) {p : String}
    (hlive : (e.live.get? p).isSome = true) (hwork : ∀ run, e.work ≠ some (.tearingDown run))
    (events : List Event) : (e.after events).Pursues p (e.exchanges events) := by
  -- A transcript grows at its end, so the last event is taken off.
  induction events using List.reverseRecOn with
  | nil => exact .of_live (Or.inl hlive) hwork
  | append_singleton events ev ih =>
    rw [exchanges_concat]
    exact ih.move (h.after hs events) (after_move hs events ev)

/-- Nothing is shown and nothing is live, and what has been live was destroyed, as far as the
container would have it. -/
structure TornDown (e : Engine) (events : List Event) : Prop where
  board : (e.after events).board.IsBlank
  live : (e.after events).live = .empty
  destroyed : ∀ past later, events = past ++ later →
    (∀ run, (e.after past).work ≠ some (.tearingDown run)) →
      ∀ p, ((e.after past).live.get? p).isSome = true →
        ((e.after past).exchanges later).Destroys p

/-- When the report of the teardown has been given, everything has been taken down. -/
theorem start_tornDown (config : Config) (store : Store) {events : List Event} {report : Report}
    (hreply : ((start config store).after events).reply = .given report) :
    (start config store).TornDown events := by
  have hsound : (start config store).Sound := .start config store
  have hclears : (start config store).Clears := ⟨nofun, nofun⟩
  obtain ⟨hlive, hblank⟩ := (hclears.after hsound events).given report hreply
  refine ⟨hblank, hlive, ?_⟩
  rintro past later rfl hwork p hp
  have htracks := (start_tracks config store).after hsound past
  have hpursues := htracks.pursues (hsound.after past) hp hwork later
  rw [after_append] at hlive
  refine hpursues.live.resolve_left ?_
  rw [hlive]
  exact nofun

end Engine

end Reconciliation
