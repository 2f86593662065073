import Reconciliation.Proofs.Deployment.Convergence

/-! # Paths do not disturb one another

Where the answer to a call depends on the earlier calls at its path alone, a run goes at each path
as if there were no other.
-/
namespace Reconciliation

section

variable {σ : Type} (respond : σ → Call → Response × σ)

def stateAfter (s : σ) (past : List Call) : σ :=
  past.foldl (fun s c => (respond s c).2) s

def answerAfter (s : σ) (past : List Call) (c : Call) : Response :=
  (respond (stateAfter respond s past) c).1

/-- Nothing but the call and the earlier calls at its path decides an answer. -/
def KeepsPathsApart (s : σ) : Prop :=
  ∀ past past' c, (past.filter fun d => d.path == c.path) = (past'.filter fun d => d.path == c.path) →
    answerAfter respond s past c = answerAfter respond s past' c

end

namespace Transcript

/-- The responses are those that `answer` gives, each to its call and the calls before it; given are
the calls before all of them. -/
def AnsweredBy (answer : List Call → Call → Response) : List Call → Transcript → Prop
  | _, [] => True
  | past, x :: log => x.response = answer past x.call ∧ AnsweredBy answer (past ++ [x.call]) log

variable {answer answer' : List Call → Call → Response} {past : List Call} {log : Transcript}

theorem AnsweredBy.concat {x : Exchange} (h : AnsweredBy answer past log)
    (hx : x.response = answer (past ++ log.map Exchange.call) x.call) :
    AnsweredBy answer past (log ++ [x]) := by
  induction log generalizing past with
  | nil => exact ⟨by simpa using hx, trivial⟩
  | cons y log ih => exact ⟨h.1, ih h.2 (by simpa using hx)⟩

theorem AnsweredBy.about {p : String} (h : AnsweredBy answer past log)
    (hlocal : ∀ past past' c,
      (past.filter fun d => d.path == c.path) = (past'.filter fun d => d.path == c.path) →
      answer past c = answer past' c) :
    AnsweredBy answer (past.filter fun d => d.path == p) (log.about p) := by
  induction log generalizing past with
  | nil => trivial
  | cons x log ih =>
    have hrest := ih h.2
    rw [List.filter_append] at hrest
    rw [about_cons]
    by_cases hp : x.path = p
    · rw [if_pos hp]
      have hcall : x.call.path = p := hp
      have hkept : ([x.call].filter fun d => d.path == p) = [x.call] := by simp [hcall]
      rw [hkept] at hrest
      refine ⟨h.1.trans (hlocal _ _ _ ?_), hrest⟩
      rw [hcall, List.filter_filter]
      simp
    · rw [if_neg hp]
      have hcall : x.call.path ≠ p := hp
      have hdropped : ([x.call].filter fun d => d.path == p) = [] := by simp [hcall]
      rwa [hdropped, List.append_nil] at hrest

/-- Answers that agree at a path are the same where all calls are about it. -/
theorem AnsweredBy.congr {p : String}
    (hagree : ∀ past c, (∀ d ∈ past, d.path = p) → c.path = p → answer past c = answer' past c)
    (hpast : ∀ d ∈ past, d.path = p) (hlog : ∀ x ∈ log, x.path = p)
    (h : AnsweredBy answer past log) : AnsweredBy answer' past log := by
  induction log generalizing past with
  | nil => trivial
  | cons x log ih =>
    have hx : x.call.path = p := hlog x List.mem_cons_self
    refine ⟨h.1.trans (hagree past x.call hpast hx), ih ?_ ?_ h.2⟩
    · intro d hd
      rcases List.mem_append.1 hd with hd | hd
      · exact hpast d hd
      · rw [List.mem_singleton.1 hd]
        exact hx
    · exact fun y hy => hlog y (List.mem_cons_of_mem x hy)

theorem path_of_mem_about {p : String} {x : Exchange} (h : x ∈ log.about p) : x.path = p :=
  beq_iff_eq.1 (List.mem_filter.1 h).2

end Transcript

/-- What is live at a path and its tasks decide how they go, for they decide the calls and these the
answers. -/
theorem Lane.unique {answer : List Call → Call → Response} {past : List Call}
    {l l' l'' : Option Live} {ts : List Task} {xs ys : Transcript} (h : Lane l ts xs l')
    (h' : Lane l ts ys l'') (hx : Transcript.AnsweredBy answer past xs)
    (hy : Transcript.AnsweredBy answer past ys) : xs = ys ∧ l' = l'' := by
  induction h generalizing past ys with
  | done l =>
    cases h'
    exact ⟨rfl, rfl⟩
  | idle hidle _ ih =>
    cases h' with
    | idle _ hrest' => exact ih hrest' hx hy
    | call response' hcall' _ => cases hidle.symm.trans hcall'
  | call response hcall _ ih =>
    cases h' with
    | idle hidle' _ => cases hidle'.symm.trans hcall
    | call response' hcall' hrest' =>
      obtain rfl := Option.some.inj (hcall.symm.trans hcall')
      obtain rfl : response = response' := hx.1.trans hy.1.symm
      obtain ⟨rfl, rfl⟩ := ih hrest' hx.2 hy.2
      exact ⟨rfl, rfl⟩

namespace Report

def about (r : Report) (p : String) : Report :=
  { created := r.created.filter fun q => q == p
    reloaded := r.reloaded.filter fun q => q == p
    destroyed := r.destroyed.filter fun q => q == p
    failed := r.failed.filter fun f => f.1 == p }

def addAll (r : Report) (log : Transcript) : Report :=
  log.foldl (fun r x => r.add x.call x.response) r

theorem about_add (r : Report) (c : Call) (response : Response) (p : String) :
    (r.add c response).about p = if c.path = p then (r.about p).add c response else r.about p := by
  have hconcat : ∀ qs : List String, (qs ++ [c.path]).filter (fun q => q == p) =
      if c.path = p then qs.filter (fun q => q == p) ++ [c.path]
      else qs.filter fun q => q == p := by
    intro qs
    by_cases hp : c.path = p <;> simp [hp]
  cases response with
  | error why => by_cases hp : c.path = p <;> simp [add, about, hp]
  | ok number =>
    cases c <;> simp only [add, about, Call.operation, hconcat] <;> split <;> rfl

theorem about_addAll (r : Report) (log : Transcript) (p : String) :
    (r.addAll log).about p = (r.about p).addAll (log.about p) := by
  induction log generalizing r with
  | nil => rfl
  | cons x log ih =>
    have hstep := ih (r.add x.call x.response)
    rw [about_add] at hstep
    rw [Transcript.about_cons]
    refine hstep.trans ?_
    by_cases hp : x.path = p
    · rw [if_pos hp, if_pos (show x.call.path = p from hp)]
      rfl
    · rw [if_neg hp, if_neg (show ¬ x.call.path = p from hp)]

end Report

theorem Run.Exchanges.report_eq {r r' : Run} {calls : Transcript} (h : r.Exchanges calls r') :
    r'.report = r.report.addAll calls := by
  induction h with
  | refl r => rfl
  | turn response h _ ih =>
    obtain ⟨_, _, _, -, -, -, hanswer⟩ := of_call? h
    rw [ih, hanswer]
    rfl

section

variable {σ : Type} (respond : σ → Call → Response × σ)

structure Transcript.Recounts (s : σ) (now : σ × Transcript) : Prop where
  state : now.1 = stateAfter respond s (now.2.map Exchange.call)
  answered : now.2.AnsweredBy (answerAfter respond s) []

theorem Transcript.Recounts.recording {s : σ} {now : σ × Transcript}
    (h : Transcript.Recounts respond s now) (c : Call) :
    Transcript.Recounts respond s (Transcript.recording respond now c).2 := by
  constructor
  · simp [Transcript.recording, stateAfter, h.state]
  · refine h.answered.concat ?_
    rw [List.nil_append, answerAfter, ← h.state]

namespace Run

/-- What a container keeps true of its state is true of it when a run is over. -/
theorem driveFor_keeps (kept : σ → Prop) (h : ∀ s c, kept s → kept (respond s c).2) (n : Nat)
    (r : Run) {s : σ} (hs : kept s) : kept (r.driveFor respond n s).2 := by
  induction n generalizing r s with
  | zero => exact hs
  | succ n ih =>
    rw [driveFor]
    split
    · exact hs
    · next c _ => exact ih _ (h s c hs)

structure Driven (s : σ) (r : Run) (calls : Transcript) (r' : Run) : Prop where
  exchanges : r.Exchanges calls r'
  ends : r'.call? = none
  answered : calls.AnsweredBy (answerAfter respond s) []

theorem drive_driven (r : Run) (s : σ) :
    ∃ r' s' calls, r.drive (Transcript.recording respond) (s, []) = (r', s', calls) ∧
      Driven respond s r calls r' := by
  obtain ⟨r', s', calls, hd, he, hn⟩ := drive_recording respond r s []
  rw [List.nil_append] at hd
  have hstart : Transcript.Recounts respond s (s, []) := ⟨rfl, trivial⟩
  have hend : Transcript.Recounts respond s (r.drive (Transcript.recording respond) (s, [])).2 :=
    driveFor_keeps (Transcript.recording respond) (Transcript.Recounts respond s)
      (fun _ c h => h.recording respond c) r.weight r hstart
  rw [hd] at hend
  exact ⟨r', s', calls, hd, he, hn, hend.answered⟩

end Run

end

namespace Dictionary

variable {α : Type}

def only (d : Dictionary α) (k : String) : Dictionary α :=
  ⟨d.entries.filter fun e => e.1 == k, d.sorted.filter _⟩

theorem get?_only (d : Dictionary α) (k k' : String) :
    (d.only k).get? k' = if k = k' then d.get? k' else none := by
  ext v
  have hmem : (k', v) ∈ (d.only k).entries ↔ (k', v) ∈ d.entries ∧ k' = k := by
    simp [only]
  rw [get?_eq_some_iff, hmem]
  by_cases h : k = k'
  · simp [h, get?_eq_some_iff]
  · simp [h, Ne.symm h]

theorem get?_ofList_filter (pairs : List (String × α)) (k k' : String) :
    (ofList (pairs.filter fun e => e.1 == k)).get? k' =
      if k = k' then (ofList pairs).get? k' else none := by
  have hfold : ∀ d d' : Dictionary α, d'.get? k' = (if k = k' then d.get? k' else none) →
      ((pairs.filter fun e => e.1 == k).foldl (fun d e => d.insert e.1 e.2) d').get? k' =
        if k = k' then (pairs.foldl (fun d e => d.insert e.1 e.2) d).get? k' else none := by
    induction pairs with
    | nil => exact fun _ _ h => h
    | cons e pairs ih =>
      intro d d' h
      by_cases he : e.1 = k
      · rw [List.filter_cons_of_pos (by simpa using he)]
        apply ih
        rw [get?_insert, get?_insert, h]
        by_cases hk : k = k'
        · simp [hk]
        · simp [he, hk]
      · rw [List.filter_cons_of_neg (by simpa using he)]
        apply ih
        rw [get?_insert, h]
        by_cases hk : k = k'
        · simp [← hk, he]
        · simp [hk]
  apply hfold
  simp

end Dictionary

namespace Run

def wantedAt (apps : List Accepted) (p : String) : List Accepted :=
  apps.filter fun a => a.base == p

theorem get?_wanted_wantedAt (apps : List Accepted) (p q : String) :
    (wanted (wantedAt apps p)).get? q = if p = q then (wanted apps).get? q else none := by
  have hmap : (wantedAt apps p).map (fun a => (a.base, a)) =
      (apps.map fun a => (a.base, a)).filter fun e => e.1 == p := by
    rw [List.filter_map]
    rfl
  rw [wanted, hmap, Dictionary.get?_ofList_filter]
  rfl

variable {σ τ : Type} {respond : σ → Call → Response × σ} {respond' : τ → Call → Response × τ}
  {s : σ} {t : τ} {live live' : LiveMap} {apps apps' : List Accepted} {calls calls' : Transcript}
  {r r' : Run}

/-- Where the same is live and wanted and calls are answered alike, runs go alike. -/
theorem Driven.agree (h : Driven respond s (towards live apps) calls r)
    (h' : Driven respond' t (towards live' apps') calls' r') (hapart : KeepsPathsApart respond s)
    (hapart' : KeepsPathsApart respond' t) {p : String} (hlive : live'.get? p = live.get? p)
    (hwanted : (wanted apps').get? p = (wanted apps).get? p)
    (hagree : ∀ past c, (∀ d ∈ past, d.path = p) → c.path = p →
      answerAfter respond' t past c = answerAfter respond s past c) :
    calls'.about p = calls.about p ∧ r'.report.about p = r.report.about p ∧
      r'.finalLive.get? p = r.finalLive.get? p := by
  have hlane := h.exchanges.lane h.ends p
  have hlane' := h'.exchanges.lane h'.ends p
  have hsame : (towards live' apps').live.get? p = (towards live apps).live.get? p := hlive
  rw [tasksAt_towards] at hlane hlane'
  rw [hsame, hlive, hwanted] at hlane'
  have hanswered := h.answered.about (p := p) hapart
  have hanswered' := (h'.answered.about (p := p) hapart').congr hagree (by simp)
    fun x hx => Transcript.path_of_mem_about hx
  obtain ⟨hcalls, hfinal⟩ := Lane.unique hlane' hlane hanswered' hanswered
  refine ⟨hcalls, ?_, ?_⟩
  · rw [h.exchanges.report_eq, h'.exchanges.report_eq, Report.about_addAll, Report.about_addAll,
      hcalls]
    rfl
  · rwa [finalLive_of_towards h.exchanges, finalLive_of_towards h'.exchanges]

theorem Driven.about_only {p : String}
    (h : Driven respond s (towards (live.only p) (wantedAt apps p)) calls r) :
    calls.about p = calls := by
  apply List.filter_eq_self.2
  intro x hx
  by_contra hp
  have hne : ¬ p = x.path := fun he => hp (by simp [he])
  have hlane := h.exchanges.lane h.ends x.path
  have hlive : (towards (live.only p) (wantedAt apps p)).live.get? x.path = none := by
    change (live.only p).get? x.path = none
    rw [Dictionary.get?_only, if_neg hne]
  rw [tasksAt_towards, get?_wanted_wantedAt, if_neg hne, Dictionary.get?_only, if_neg hne,
    hlive] at hlane
  have hnone : calls.about x.path = [] := (Lane.eq_of_nil hlane).1
  have hmem : x ∈ calls.about x.path := List.mem_filter.2 ⟨hx, by simp⟩
  rw [hnone] at hmem
  cases hmem

/-- Where a container keeps paths apart, a run goes at a path as it goes with this path alone: the
same calls, the same entries of the report, the same live in the end. So nothing that a container
answers elsewhere changes anything there. -/
theorem towards_keeps_paths_apart {σ : Type} (respond : σ → Call → Response × σ) (s : σ)
    (hapart : KeepsPathsApart respond s) (live : LiveMap) (apps : List Accepted) (p : String) :
    ∃ run s' calls,
      (towards live apps).drive (Transcript.recording respond) (s, []) = (run, s', calls) ∧
      run.call? = none ∧
      (∃ alone s'',
        (towards (live.only p) (wantedAt apps p)).drive (Transcript.recording respond) (s, []) =
          (alone, s'', calls.about p) ∧ alone.call? = none ∧
        alone.report = run.report.about p ∧
        alone.finalLive.get? p = run.finalLive.get? p) ∧
      ∀ {τ : Type} (respond' : τ → Call → Response × τ) (t : τ), KeepsPathsApart respond' t →
        (∀ past c, (∀ d ∈ past, d.path = p) → c.path = p →
          answerAfter respond' t past c = answerAfter respond s past c) →
        ∃ other t' calls',
          (towards live apps).drive (Transcript.recording respond') (t, []) =
            (other, t', calls') ∧ calls'.about p = calls.about p ∧
          other.report.about p = run.report.about p ∧
          other.finalLive.get? p = run.finalLive.get? p := by
  obtain ⟨run, s', calls, hrun, hdriven⟩ := drive_driven respond (towards live apps) s
  refine ⟨run, s', calls, hrun, hdriven.ends, ?_, ?_⟩
  · obtain ⟨alone, s'', mine, halone, hdriven'⟩ :=
      drive_driven respond (towards (live.only p) (wantedAt apps p)) s
    have hlive : (live.only p).get? p = live.get? p := by rw [Dictionary.get?_only, if_pos rfl]
    have hwanted : (wanted (wantedAt apps p)).get? p = (wanted apps).get? p := by
      rw [get?_wanted_wantedAt, if_pos rfl]
    obtain ⟨hcalls, hreport, hfinal⟩ :=
      hdriven.agree hdriven' hapart hapart hlive hwanted fun _ _ _ _ => rfl
    have honly := hdriven'.about_only
    have hself : alone.report.about p = alone.report := by
      rw [hdriven'.exchanges.report_eq, Report.about_addAll, honly]
      rfl
    rw [honly] at hcalls
    exact ⟨alone, s'', by rw [halone, hcalls], hdriven'.ends, hself ▸ hreport, hfinal⟩
  · intro τ respond' t hapart' hagree
    obtain ⟨other, t', calls', hother, hdriven'⟩ := drive_driven respond' (towards live apps) t
    exact ⟨other, t', calls', hother, hdriven.agree hdriven' hapart hapart' rfl rfl hagree⟩

end Run

namespace Shop

def stubborn (closed : String) (past : List Call) (c : Call) : Response × List Call :=
  (if c.operation = .reload ∨ c.path = closed then .error "refused"
    else .ok (past.filter fun d => d.path == c.path).length, past ++ [c])

theorem stateAfter_stubborn (closed : String) (before past : List Call) :
    stateAfter (stubborn closed) before past = before ++ past := by
  induction past generalizing before with
  | nil => exact (List.append_nil before).symm
  | cons c past ih =>
    refine (ih (before ++ [c])).trans ?_
    rw [List.append_assoc]
    rfl

theorem stubborn_keepsPathsApart (closed : String) : KeepsPathsApart (stubborn closed) [] := by
  intro past past' c hsame
  simp only [answerAfter, stateAfter_stubborn, List.nil_append, stubborn, hsame]

theorem stubborn_agree {closed closed' : String} {past : List Call} {c : Call}
    (h : c.path ≠ closed) (h' : c.path ≠ closed') :
    answerAfter (stubborn closed') [] past c = answerAfter (stubborn closed) [] past c := by
  simp only [answerAfter, stateAfter_stubborn, List.nil_append, stubborn, h, h', or_false]

def outdated : LiveMap :=
  leftover.insert "/shop" ⟨6, ⟨.registered 1, 1, []⟩⟩

/-- The old path cannot be cleared. The shop cannot be reloaded either, but is replaced, as it would
be if there were no other path, or if the old path could be cleared. -/
theorem shop_replaced_on_its_own : ∃ run s' calls,
    (Run.towards outdated [frontPage, shopPage]).drive (Transcript.recording (stubborn "/old"))
      ([], []) = (run, s', calls) ∧
    run.report.failed = [("/old", .destroy, "refused"), ("/shop", .reload, "refused")] ∧
    (calls.about "/shop").operations = [.reload, .destroy, .create] ∧
    (∃ alone s'', (Run.towards (outdated.only "/shop") [shopPage]).drive
        (Transcript.recording (stubborn "/old")) ([], []) = (alone, s'', calls.about "/shop") ∧
      alone.report = run.report.about "/shop") ∧
    ∃ other t' calls', (Run.towards outdated [frontPage, shopPage]).drive
        (Transcript.recording (stubborn "/attic")) ([], []) = (other, t', calls') ∧
      other.report.failed = [("/shop", .reload, "refused")] ∧
      calls'.about "/shop" = calls.about "/shop" := by
  obtain ⟨run, s', calls, hrun, -, ⟨alone, s'', halone, -, hreport, -⟩, hothers⟩ :=
    Run.towards_keeps_paths_apart (stubborn "/old") [] (stubborn_keepsPathsApart "/old") outdated
      [frontPage, shopPage] "/shop"
  obtain ⟨other, t', calls', hother, hcalls, -, -⟩ :=
    hothers (stubborn "/attic") [] (stubborn_keepsPathsApart "/attic") fun past c _ hc =>
      stubborn_agree (by rw [hc]; decide) (by rw [hc]; decide)
  have hwanted : Run.wantedAt [frontPage, shopPage] "/shop" = [shopPage] := by decide +kernel
  rw [hwanted] at halone
  refine ⟨run, s', calls, hrun, ?_, ?_, ⟨alone, s'', halone, hreport⟩, other, t', calls', hother, ?_,
    hcalls⟩
  · rw [show run = _ from (congrArg Prod.fst hrun).symm]
    decide +kernel
  · rw [show calls = _ from (congrArg (fun reached => reached.2.2) hrun).symm]
    decide +kernel
  · rw [show other = _ from (congrArg Prod.fst hother).symm]
    decide +kernel

end Shop

end Reconciliation
