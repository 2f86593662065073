import Reconciliation.Proofs.Engine.Soundness

/-! # What a status was computed from

A pass reads the revision of the runtime properties, the properties and the snapshot one after the
other, and anything can happen between them. The change count of its status is the sum of what it
has found at two of these moments. That decides how recent the inputs are of which `settled` tells.
-/
namespace Reconciliation.Engine

theorem after_concat (e : Engine) (events : List Event) (ev : Event) :
    e.after (events ++ [ev]) = (e.after events).next ev := by
  rw [after_append]
  rfl

theorem after_move {e : Engine} (h : e.Sound) (events : List Event) (ev : Event) :
    Move (e.after events) ev (e.after (events ++ [ev])) := by
  rw [after_concat]
  exact (h.after events).next_move ev

theorem after_inputs {e : Engine} (h : e.Sound) {past events : List Event} (hp : past <+: events) :
    (e.after past).store.Reaches (e.after events).store ∧
      (e.after past).runtime.revision ≤ (e.after events).runtime.revision ∧
      (e.after events).reconciler = (e.after past).reconciler := by
  obtain ⟨later, rfl⟩ := hp
  induction later using List.reverseRecOn with
  | nil =>
    rw [List.append_nil]
    exact ⟨.refl _, le_rfl, rfl⟩
  | append_singleton later ev ih =>
    obtain ⟨hstore, hrevision, hreconciler⟩ := ih
    obtain ⟨hstore', hrevision', hreconciler'⟩ := (after_move h (past ++ later) ev).inputs
    rw [← List.append_assoc]
    exact ⟨hstore.trans hstore', hrevision.trans hrevision', hreconciler'.trans hreconciler⟩

/-- At a moment of a run, given by the events before it, the work goes on from `w` to `w'`. -/
def GoesOn (e : Engine) (events past : List Event) (w w' : Work) : Prop :=
  ∃ ev, past ++ [ev] <+: events ∧ (e.after past).work = some w ∧
    (e.after (past ++ [ev])).work = some w'

theorem GoesOn.mono {e : Engine} {events later past : List Event} {w w' : Work}
    (h : e.GoesOn events past w w') (hp : events <+: later) : e.GoesOn later past w w' := by
  obtain ⟨ev, hev, hw⟩ := h
  exact ⟨ev, hev.trans hp, hw⟩

theorem GoesOn.isPrefix {e : Engine} {events past : List Event} {w w' : Work}
    (h : e.GoesOn events past w w') : past <+: events := by
  obtain ⟨ev, hev, -⟩ := h
  exact (List.prefix_append past [ev]).trans hev

/-- The pass with this serial number reads the revision of the runtime properties at the moment `p`,
the properties at `q` and the snapshot at `r`. -/
structure PassReads (e : Engine) (events : List Event) (serial : Nat) (p q r : List Event) :
    Prop where
  revision : e.GoesOn q p (.opening serial)
    (.knowingRevision serial (e.after p).runtime.revision)
  runtime : e.GoesOn r q (.knowingRevision serial (e.after p).runtime.revision)
    (.knowingRuntime serial (e.after p).runtime.revision (e.after q).runtime.properties)
  store : ∃ changeCount resolution run, e.GoesOn events r
    (.knowingRuntime serial (e.after p).runtime.revision (e.after q).runtime.properties)
    (.deploying serial changeCount resolution run)

theorem PassReads.mono {e : Engine} {events later : List Event} {serial : Nat}
    {p q r : List Event} (h : e.PassReads events serial p q r) (hp : events <+: later) :
    e.PassReads later serial p q r := by
  obtain ⟨changeCount, resolution, run, hstore⟩ := h.store
  exact { h with store := ⟨changeCount, resolution, run, hstore.mono hp⟩ }

def resolutionOf (e : Engine) (q r : List Event) : Resolution :=
  e.reconciler.run (e.after r).store.snapshot (e.after q).runtime.properties

def countOf (e : Engine) (p r : List Event) : Nat :=
  (e.after r).store.changeCount + (e.after p).runtime.revision

def Work.Sourced (e : Engine) (events : List Event) : Work → Prop
  | .knowingRevision serial revision => ∃ p, revision = (e.after p).runtime.revision ∧
      e.GoesOn events p (.opening serial) (.knowingRevision serial revision)
  | .knowingRuntime serial revision runtime => ∃ p q,
      revision = (e.after p).runtime.revision ∧ runtime = (e.after q).runtime.properties ∧
      e.GoesOn q p (.opening serial) (.knowingRevision serial revision) ∧
      e.GoesOn events q (.knowingRevision serial revision)
        (.knowingRuntime serial revision runtime)
  | .deploying serial changeCount resolution _ => ∃ p q r, e.PassReads events serial p q r ∧
      resolution = e.resolutionOf q r ∧ changeCount = e.countOf p r
  | .opening _ | .unpublishing | .tearingDown _ => True

def StatusSourced (e : Engine) (events : List Event) (s : Status) : Prop :=
  ∃ p q r, e.PassReads events s.pass p q r ∧
    s = .ofResolution (e.resolutionOf q r) (e.countOf p r) s.pass

structure Sourced (e : Engine) (events : List Event) : Prop where
  work : ∀ w, (e.after events).work = some w → w.Sourced e events
  status : ∀ s, (e.after events).board.current = some s → e.StatusSourced events s

theorem Work.Sourced.mono {e : Engine} {events later : List Event} {w : Work}
    (h : w.Sourced e events) (hp : events <+: later) : w.Sourced e later := by
  cases w with
  | opening _ | unpublishing | tearingDown _ => trivial
  | knowingRevision serial revision =>
    obtain ⟨p, hrevision, hread⟩ := h
    exact ⟨p, hrevision, hread.mono hp⟩
  | knowingRuntime serial revision runtime =>
    obtain ⟨p, q, hrevision, hruntime, hp', hq⟩ := h
    exact ⟨p, q, hrevision, hruntime, hp', hq.mono hp⟩
  | deploying serial changeCount resolution run =>
    obtain ⟨p, q, r, hreads, hcomputed⟩ := h
    exact ⟨p, q, r, hreads.mono hp, hcomputed⟩

theorem StatusSourced.mono {e : Engine} {events later : List Event} {s : Status}
    (h : e.StatusSourced events s) (hp : events <+: later) : e.StatusSourced later s := by
  obtain ⟨p, q, r, hreads, hs⟩ := h
  exact ⟨p, q, r, hreads.mono hp, hs⟩

/-- One more event. Whatever is read with it is read at the moment before. -/
theorem Work.sourced_concat {e : Engine} {events : List Event} {ev : Event} (hsound : e.Sound)
    (h : ∀ w, (e.after events).work = some w → w.Sourced e events) {w : Work}
    (hw : (e.after (events ++ [ev])).work = some w) : w.Sourced e (events ++ [ev]) := by
  have hlater : events <+: events ++ [ev] := List.prefix_append events [ev]
  have hgoes {v : Work} (hv : (e.after events).work = some v) :
      e.GoesOn (events ++ [ev]) events v w := ⟨ev, List.prefix_rfl, hv, hw⟩
  have hturn := (after_move hsound events ev).work_turn
  generalize e.after (events ++ [ev]) = e' at hturn hw hgoes
  cases hturn with
  | stay hwork => exact (h w (hwork.symm.trans hw)).mono hlater
  | rest hwork => cases hwork.symm.trans hw
  | begin hwork =>
    obtain rfl := Option.some.inj (hwork.symm.trans hw)
    trivial
  | readRevision hv =>
    obtain rfl := Option.some.inj hw
    exact ⟨events, rfl, hgoes hv⟩
  | readRuntime hv =>
    obtain rfl := Option.some.inj hw
    obtain ⟨p, hrevision, hp⟩ := h _ hv
    exact ⟨p, events, hrevision, rfl, hp, hgoes hv⟩
  | readStore hv =>
    obtain rfl := Option.some.inj hw
    obtain ⟨p, q, rfl, rfl, hp, hq⟩ := h _ hv
    refine ⟨p, q, events, ⟨hp, hq, _, _, _, hgoes hv⟩, ?_, rfl⟩
    rw [(after_inputs hsound (List.nil_prefix (l := events))).2.2]
    rfl
  | answer hv hwork =>
    obtain rfl := Option.some.inj (hwork.symm.trans hw)
    exact (h _ hv).mono hlater
  | @teardown e' v hwork hserial =>
    obtain rfl := Option.some.inj (hwork.symm.trans hw)
    cases v with
    | unpublishing | tearingDown _ => trivial
    | opening _ | knowingRevision _ _ | knowingRuntime _ _ _ | deploying _ _ _ _ => cases hserial

theorem StatusSourced.concat {e : Engine} {events : List Event} {ev : Event} (hsound : e.Sound)
    (h : e.Sourced events) {s : Status}
    (hs : (e.after (events ++ [ev])).board.current = some s) :
    e.StatusSourced (events ++ [ev]) s := by
  have hlater : events <+: events ++ [ev] := List.prefix_append events [ev]
  have hturn := (after_move hsound events ev).board_turn
  generalize (e.after (events ++ [ev])).board = b at hturn hs
  cases hturn with
  | stay hcurrent _ _ => exact (h.status s (hcurrent.symm.trans hs)).mono hlater
  | publish hwork _ =>
    obtain rfl := Option.some.inj hs
    obtain ⟨p, q, r, hreads, rfl, rfl⟩ := h.work _ hwork
    exact ⟨p, q, r, hreads.mono hlater, rfl⟩
  | unpublish _ => cases hs

theorem start_sourced (config : Config) (store : Store) (events : List Event) :
    (start config store).Sourced events := by
  have hsound := Sound.start config store
  induction events using List.reverseRecOn with
  | nil =>
    constructor
    · exact nofun
    · exact nofun
  | append_singleton events ev ih =>
    constructor
    · exact fun w hw => Work.sourced_concat hsound ih.work hw
    · exact fun s hs => StatusSourced.concat hsound ih hs

/-- Every watcher has come with a call of `settled`, and waits for the change count of that moment. -/
theorem start_targets (config : Config) (store : Store) (events : List Event) :
    ∀ w ∈ ((start config store).after events).board.watchers, ∃ past mid,
      events = past ++ .settled w.id :: mid ∧
        w.target = ((start config store).after past).changeCount := by
  induction events using List.reverseRecOn with
  | nil => exact fun w hw => absurd hw List.not_mem_nil
  | append_singleton events ev ih =>
    intro w hw
    rcases (after_move (.start config store) events ev).watchers w hw with
      ⟨v, hv, hid, htarget⟩ | ⟨rfl, htarget⟩
    · obtain ⟨past, mid, rfl, hcount⟩ := ih v hv
      refine ⟨past, mid ++ [ev], ?_, htarget ▸ hcount⟩
      rw [hid, List.append_assoc, List.cons_append]
    · exact ⟨events, [], rfl, htarget⟩

/-- When a caller of `settled` is told a status, it was computed from a snapshot that contains every
mutation made before the call. The runtime properties, too, were read when every replacement made
before the call was over, unless the call came after the reading of the properties and the store has
been changed between the call and the reading of the snapshot. -/
theorem settled_covers_store {config : Config} {store : Store} {executor : Bool} {e : Engine}
    (h : launch config store executor = .ok e) {past mid : List Event} {c : Nat} {s : Status}
    (hsole : .settled c ∉ past ++ mid)
    (htold : ((e.after (past ++ .settled c :: mid)).watch c).2 = some (some s)) :
    ∃ p q r, e.PassReads (past ++ .settled c :: mid) s.pass p q r ∧
      s = .ofResolution (e.resolutionOf q r) (e.countOf p r) s.pass ∧
      (past <+: r ∨ (e.after r).store.snapshot = (e.after past).store.snapshot) ∧
      ((e.after past).runtime.revision ≤ (e.after q).runtime.revision ∨
        q <+: past ∧ past <+: r ∧
          (e.after past).store.changeCount < (e.after r).store.changeCount) := by
  obtain ⟨config, rfl⟩ := launch_eq_ok h
  have hsound := Sound.start config store
  obtain ⟨hcurrent, w, hw, rfl, htarget⟩ := StatusBoard.of_told htold
  obtain ⟨past', mid', hsplit, hcount⟩ := start_targets config store _ w hw
  rw [List.mem_append, not_or] at hsole
  obtain ⟨rfl, -, -⟩ := (List.append_cons_inj_of_notMem hsole.1 hsole.2).1 hsplit
  obtain ⟨p, q, r, hreads, hs⟩ := (start_sourced config store _).status s hcurrent
  have hcovers : ((start config store).after past).changeCount ≤
      (start config store).countOf p r := by
    rw [← hcount]
    exact htarget.trans (congrArg Status.changeCount hs).le
  obtain ⟨changeCount, resolution, run, hstore⟩ := hreads.store
  have hpq := hreads.revision.isPrefix
  have hqr := hreads.runtime.isPrefix
  have hevents : past <+: past ++ .settled w.id :: mid := List.prefix_append _ _
  have hrevision := (after_inputs hsound hpq).2.1
  have hcounted : ∀ moment, Engine.changeCount ((start config store).after moment) =
      ((start config store).after moment).store.changeCount +
        ((start config store).after moment).runtime.revision := fun _ => rfl
  rw [hcounted, countOf] at hcovers
  refine ⟨p, q, r, hreads, hs, ?_, ?_⟩
  · rcases List.prefix_or_prefix_of_prefix hevents hstore.isPrefix with hpast | hpast
    · exact Or.inl hpast
    · have hread := (after_inputs hsound ((hpq.trans hqr).trans hpast)).2.1
      exact Or.inr ((after_inputs hsound hpast).1.snapshot_eq (by omega)).symm
  · rcases List.prefix_or_prefix_of_prefix hevents (hqr.trans hstore.isPrefix) with hpast | hpast
    · exact Or.inl (after_inputs hsound hpast).2.1
    · rcases List.prefix_or_prefix_of_prefix hevents hstore.isPrefix with hlate | hearly
      · by_cases hrecent : ((start config store).after past).runtime.revision ≤
            ((start config store).after q).runtime.revision
        · exact Or.inl hrecent
        · exact Or.inr ⟨hpast, hlate, by omega⟩
      · have hcount := (after_inputs hsound hearly).1.changeCount_le
        exact Or.inl (by omega)

def shopElsewhere : Registration :=
  ⟨.ofList [(Keys.applicationBase, .text "/shop"), (Keys.name, .text "shop"),
    (Keys.target, .text "(!(region=us))")], none, none⟩

/-- The runtime moves to that region when the first pass has read the runtime properties. -/
def overtaken : List Event :=
  [.pump 0, .pump 50, .pump 50, .pump 50] ++ List.replicate 9 (.act 50) ++
    [.storeRuntime (.ofList [("region", .text "us")]), .advanceRuntime]

/-- Now somebody calls `settled`, the shop comes, and the pass reads the store. -/
def overtakenAndOn : List Event :=
  overtaken ++ [.settled 7, .mutate (.register shopElsewhere), .act 50]

def Work.readsRuntime : Work → Bool
  | .knowingRevision _ _ => true
  | _ => false

theorem deploying_after_responses {e : Engine} {serial changeCount : Nat} {resolution : Resolution}
    {run : Run} (hwork : e.work = some (.deploying serial changeCount resolution run))
    {events : List Event} (hev : ∀ ev ∈ events, ∃ response, ev = .respond response) :
    ∃ run, (e.after events).work = some (.deploying serial changeCount resolution run) := by
  induction events generalizing e run with
  | nil => exact ⟨run, hwork⟩
  | cons ev events ih =>
    obtain ⟨response, rfl⟩ := hev ev List.mem_cons_self
    have hnext : (e.respond response).work =
        some (.deploying serial changeCount resolution (run.answer response)) := by
      simp only [respond, hwork]
    exact ih hnext fun ev hm => hev ev (List.mem_cons_of_mem _ hm)

/-- In the run so far the properties were read before they were replaced. -/
theorem overtaken_reads_early : ∀ q ∈ overtakenAndOn.inits,
    ((start .default (.empty 0)).after q).work.any Work.readsRuntime = true →
      ((start .default (.empty 0)).after q).runtime.revision = 0 := by
  decide +kernel

theorem overtaken_ends : ∃ n s,
    let events := overtakenAndOn ++
      (((List.range n).map fun _ => .respond (.ok 1)) ++ [.act 50] ++ [.watch 7])
    (((start .default (.empty 0)).after events).watch 7).2 = some (some s) ∧
      ∀ q, overtakenAndOn <+: q → q <+: events →
        ((start .default (.empty 0)).after q).work.any Work.readsRuntime = false := by
  generalize hreached : (start .default (.empty 0)).after overtakenAndOn = e
  have hs : e.InService := by
    rw [← hreached]
    exact after_inService (.start _ _) (by decide)
  have hwork : ∃ resolution run, e.work = some (.deploying 1 1 resolution run) := by
    rw [← hreached]
    exact ⟨_, _, rfl⟩
  have hboard : e.board = ⟨none, .pending, 0, [⟨7, 1, 0, .looking⟩]⟩ := by
    rw [← hreached]
    decide +kernel
  obtain ⟨resolution, run, hwork⟩ := hwork
  obtain ⟨n, live, run', hafter, hcomplete⟩ := hs.deploying_completes hwork (fun _ => .ok 1) 50
  refine ⟨n, .ofResolution resolution 1 1, ?_, ?_⟩
  · rw [after_append, hreached, after_concat, after_concat, hafter, hcomplete]
    change (((e.board.publish _).step 7).1.step 7).2 = _
    rw [hboard]
    rfl
  · rintro q ⟨q', rfl⟩ hq
    rw [after_append, hreached]
    rcases List.prefix_concat_iff.1 ((List.prefix_append_right_inj _).1 hq) with rfl | hq
    · rw [after_concat, after_concat, hafter, hcomplete]
      rfl
    rcases List.prefix_concat_iff.1 hq with rfl | hq
    · rw [after_concat, hafter, hcomplete]
      rfl
    · obtain ⟨run, hrun⟩ := deploying_after_responses hwork
        fun ev hm => eq_respond_of_mem (hq.subset hm)
      rw [hrun]
      rfl

theorem overtaken_sole (n : Nat) : .settled 7 ∉ overtaken ++
    ([.mutate (.register shopElsewhere), .act 50] ++
      (((List.range n).map fun _ => .respond (.ok 1)) ++ [.act 50] ++ [.watch 7])) := by
  simp [overtaken]

/-- The shop stands in for the replacement that the pass has missed: what `settled` tells of was
computed from the properties before it. -/
theorem settled_overlooks_replacement : ∃ e mid s,
    launch .default (.empty 0) true = .ok e ∧ .settled 7 ∉ overtaken ++ mid ∧
    ((e.after (overtaken ++ .settled 7 :: mid)).watch 7).2 = some (some s) ∧
    e.StatusSourced (overtaken ++ .settled 7 :: mid) s ∧
    ∀ p q r, e.PassReads (overtaken ++ .settled 7 :: mid) s.pass p q r →
      (e.after q).runtime.revision < (e.after overtaken).runtime.revision := by
  have hlaunch : launch .default (.empty 0) true = .ok (start .default (.empty 0)) := rfl
  obtain ⟨n, s, htold, hlate⟩ := overtaken_ends
  have hsourced := (start_sourced _ _ _).status s (StatusBoard.of_told htold).1
  refine ⟨_, _, s, hlaunch, overtaken_sole n, htold, hsourced, ?_⟩
  intro p q r hreads
  obtain ⟨changeCount, resolution, run, hstore⟩ := hreads.store
  have hq := hreads.runtime.isPrefix.trans hstore.isPrefix
  obtain ⟨ev, -, hwork, -⟩ := hreads.runtime
  have hany : ((start .default (.empty 0)).after q).work.any Work.readsRuntime = true := by
    rw [hwork]
    rfl
  have hearly : q <+: overtakenAndOn := by
    rcases List.prefix_or_prefix_of_prefix hq (List.prefix_append overtakenAndOn _) with h | h
    · exact h
    · cases (hlate q h hq).symm.trans hany
  rw [overtaken_reads_early q ((List.mem_inits _ _).2 hearly) hany]
  decide +kernel

/-- Even so, the shop itself is there. -/
theorem overtaken_covers_store : ∃ e mid s,
    launch .default (.empty 0) true = .ok e ∧ .settled 7 ∉ overtaken ++ mid ∧
    ((e.after (overtaken ++ .settled 7 :: mid)).watch 7).2 = some (some s) ∧
    ∃ p q r, e.PassReads (overtaken ++ .settled 7 :: mid) s.pass p q r ∧
      (overtaken <+: r ∨ (e.after r).store.snapshot = (e.after overtaken).store.snapshot) := by
  have hlaunch : launch .default (.empty 0) true = .ok (start .default (.empty 0)) := rfl
  obtain ⟨n, s, htold, -⟩ := overtaken_ends
  obtain ⟨p, q, r, hreads, -, hstore, -⟩ :=
    settled_covers_store hlaunch (overtaken_sole n) htold
  exact ⟨_, _, s, hlaunch, overtaken_sole n, htold, p, q, r, hreads, hstore⟩

end Reconciliation.Engine
