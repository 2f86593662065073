import Reconciliation.Proofs.Deployment.Separation

/-! # Reports account for every call

Nothing but calls is ever entered into a report, so the report of a run is the transcript sorted by
outcome, and it is empty just if there was no call.
-/
namespace Reconciliation

def Exchange.failure? (x : Exchange) : Option (String × Operation × String) :=
  match x.response with
  | .ok _ => none
  | .error why => some (x.path, x.call.operation, why)

namespace Transcript

def successes (log : Transcript) (o : Operation) : List String :=
  (log.filter fun x => x.call.operation == o && x.succeeds).map Exchange.path

def failures (log : Transcript) : List (String × Operation × String) :=
  log.filterMap Exchange.failure?

theorem successes_append (log log' : Transcript) (o : Operation) :
    successes (log ++ log') o = log.successes o ++ log'.successes o := by
  simp [successes]

theorem failures_append (log log' : Transcript) :
    failures (log ++ log') = log.failures ++ log'.failures := by
  simp [failures]

end Transcript

namespace Report

def listed (r : Report) : Operation → List String
  | .create => r.created
  | .reload => r.reloaded
  | .destroy => r.destroyed

def size (r : Report) : Nat :=
  r.created.length + r.reloaded.length + r.destroyed.length + r.failed.length

theorem isNoop_iff (r : Report) : r.isNoop = true ↔ r.size = 0 := by
  simp [isNoop, size, and_assoc]

structure Accounts (r : Report) (calls : Transcript) : Prop where
  created : r.created = calls.successes .create
  reloaded : r.reloaded = calls.successes .reload
  destroyed : r.destroyed = calls.successes .destroy
  failed : r.failed = calls.failures
  size : r.size = calls.length
  noop : r.isNoop = true ↔ calls = []

section Add

variable (r : Report) (c : Call) (response : Response)

theorem listed_add (o : Operation) :
    (r.add c response).listed o = r.listed o ++ Transcript.successes [⟨c, response⟩] o := by
  cases response with
  | error why => cases o <;> simp [add, listed, Transcript.successes, Exchange.succeeds]
  | ok number =>
    cases c <;> cases o <;>
      simp [add, listed, Transcript.successes, Exchange.succeeds, Exchange.path, Call.operation]

theorem failed_add :
    (r.add c response).failed = r.failed ++ Transcript.failures [⟨c, response⟩] := by
  cases response with
  | error why => rfl
  | ok number => cases c <;> simp [add, Call.operation, Transcript.failures, Exchange.failure?]

theorem size_add : (r.add c response).size = r.size + 1 := by
  cases response with
  | error why =>
    simp only [add, size, List.length_append, List.length_singleton]
    omega
  | ok number =>
    cases c <;> simp only [add, size, Call.operation, List.length_append, List.length_singleton] <;>
      omega

end Add

theorem listed_addAll (r : Report) (log : Transcript) (o : Operation) :
    (r.addAll log).listed o = r.listed o ++ log.successes o := by
  induction log generalizing r with
  | nil => simp [addAll, Transcript.successes]
  | cons x log ih =>
    have hsplit := Transcript.successes_append [x] log o
    rw [List.singleton_append] at hsplit
    rw [hsplit, ← List.append_assoc, ← listed_add]
    exact ih _

theorem failed_addAll (r : Report) (log : Transcript) :
    (r.addAll log).failed = r.failed ++ log.failures := by
  induction log generalizing r with
  | nil => simp [addAll, Transcript.failures]
  | cons x log ih =>
    have hsplit := Transcript.failures_append [x] log
    rw [List.singleton_append] at hsplit
    rw [hsplit, ← List.append_assoc, ← failed_add]
    exact ih _

theorem size_addAll (r : Report) (log : Transcript) :
    (r.addAll log).size = r.size + log.length := by
  induction log generalizing r with
  | nil => rfl
  | cons x log ih =>
    have hrest := ih (r.add x.call x.response)
    rw [size_add] at hrest
    rw [List.length_cons]
    exact hrest.trans (by omega)

theorem empty_addAll_accounts (log : Transcript) : (empty.addAll log).Accounts log := by
  have hsize : (empty.addAll log).size = log.length := (size_addAll _ log).trans (Nat.zero_add _)
  exact {
    created := listed_addAll empty log .create
    reloaded := listed_addAll empty log .reload
    destroyed := listed_addAll empty log .destroy
    failed := failed_addAll empty log
    size := hsize
    noop := by rw [isNoop_iff, hsize, List.length_eq_zero_iff] }

end Report

namespace Run

/-- A run that begins with an empty report ends with one that accounts for its calls. -/
theorem Exchanges.accounts {r r' : Run} {calls : Transcript} (h : r.Exchanges calls r')
    (hempty : r.report = .empty) : r'.report.Accounts calls := by
  rw [h.report_eq, hempty]
  exact Report.empty_addAll_accounts calls

theorem operations_nodup {operations : List Operation} (h : operations ∈ courses) :
    operations.Nodup := by
  revert operations
  decide

theorem due_of_agenda {r : Run} {t : Task} {rest : List Task} {c : Call}
    (hagenda : r.agenda = t :: rest) (hcall : t.call? r.live = some c) : r.due = t :: rest := by
  simp [due, hagenda, hcall]

/-- Errands for entries that are live lead to one call for each of them, in their order. -/
theorem Exchanges.calls_of_retire {es : List (String × Live)} {r r' : Run} {calls : Transcript}
    (h : r.Exchanges calls r') (hend : r'.call? = none)
    (hagenda : r.agenda = es.map fun e => .retire e.1) (hapart : (es.map Prod.fst).Nodup)
    (hlive : ∀ e ∈ es, r.live.get? e.1 = some e.2) :
    calls.map Exchange.call = es.map fun e => .destroy e.1 e.2.handle := by
  induction es generalizing r calls with
  | nil =>
    have hover : r.call? = none := call?_eq_none (by simp [hagenda])
    cases h with
    | refl => rfl
    | turn response hcall _ => cases hover.symm.trans hcall
  | cons e es ih =>
    obtain ⟨hfresh, hapart⟩ := List.nodup_cons.1 hapart
    obtain ⟨he, hlive⟩ := List.forall_mem_cons.1 hlive
    have hfirst : Task.call? r.live (.retire e.1) = some (.destroy e.1 e.2.handle) := by
      simp [Task.call?, he]
    have hdue := due_of_agenda hagenda hfirst
    have hnext : r.call? = some (.destroy e.1 e.2.handle) := by
      rw [call?, hdue]
      exact hfirst
    cases h with
    | refl => cases hnext.symm.trans hend
    | turn response hcall hrest =>
      obtain rfl := Option.some.inj (hnext.symm.trans hcall)
      have hanswer : r.answer response =
          { r with
            live := r.live.after (.destroy e.1 e.2.handle) response
            report := r.report.add (.destroy e.1 e.2.handle) response
            agenda := es.map fun e => .retire e.1 } := by
        simp only [answer, hdue, hfirst]
        cases response <;> rfl
      rw [List.map_cons, List.map_cons, ih hrest (by rw [hanswer]) hapart]
      intro e' he'
      have hne : e.1 ≠ e'.1 := fun heq => hfresh (heq ▸ List.mem_map_of_mem he')
      have hpath : (Call.destroy e.1 e.2.handle).path = e.1 := rfl
      rw [hanswer, LiveMap.get?_after, hpath, if_neg hne]
      exact hlive e' he'

theorem calls_of_teardown {live : LiveMap} {r' : Run} {calls : Transcript}
    (h : (teardown live).Exchanges calls r') (hend : r'.call? = none) :
    calls.map Exchange.call = live.entries.map fun e => .destroy e.1 e.2.handle := by
  refine h.calls_of_retire hend ?_ live.keys_nodup fun e he => Dictionary.get?_eq_some_iff.2 he
  exact List.map_map

/-- Whatever is live, whatever is accepted and whatever the container answers, the report of a run
accounts for its calls, among which there is none that is made twice. A teardown calls for the
destruction of every live deployment, one after the other in the order of their paths, and leaves
nothing live. -/
theorem reports_every_call {σ : Type} (respond : σ → Call → Response × σ) (s : σ)
    (log : Transcript) (live : LiveMap) :
    (∀ apps, ∃ run s' calls,
      (towards live apps).drive (Transcript.recording respond) (s, log) = (run, s', log ++ calls) ∧
      run.call? = none ∧ run.report.Accounts calls ∧ ∀ p, (calls.about p).operations.Nodup) ∧
    ∃ run s' calls,
      (teardown live).drive (Transcript.recording respond) (s, log) = (run, s', log ++ calls) ∧
      run.call? = none ∧ run.report.Accounts calls ∧
      calls.map Exchange.call = (live.entries.map fun e => .destroy e.1 e.2.handle) ∧
      (calls.map Exchange.path).Pairwise (· < ·) ∧ run.finalLive = .empty := by
  constructor
  · intro apps
    obtain ⟨run, s', calls, hd, he, hend⟩ := drive_recording respond (towards live apps) s log
    exact ⟨run, s', calls, hd, hend, he.accounts rfl,
      fun p => operations_nodup (he.course hend p).operations_mem⟩
  · obtain ⟨run, s', calls, hd, he, hend⟩ := drive_recording respond (teardown live) s log
    have hcalls := calls_of_teardown he hend
    have hpaths : calls.map Exchange.path = live.keys := by
      have hmap := congrArg (List.map Call.path) hcalls
      rwa [List.map_map, List.map_map] at hmap
    have hforgets : run.forgets = true := he.forgets_eq
    refine ⟨run, s', calls, hd, hend, he.accounts rfl, hcalls, ?_, ?_⟩
    · rw [hpaths, Dictionary.keys, List.pairwise_map]
      exact live.sorted
    · simp [finalLive, hforgets]

end Run

namespace Shop

/-- What cannot be destroyed is reported and forgotten. -/
example : ((Run.teardown outdated).drive (stubborn "/old") []).1.report =
    ⟨[], [], ["/", "/shop"], [("/old", .destroy, "refused")]⟩ := by decide +kernel

end Shop

end Reconciliation
