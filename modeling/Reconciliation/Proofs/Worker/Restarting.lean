import Mathlib.Data.List.Induction
import Reconciliation.Proofs.History
import Reconciliation.Timeline.Clock
import Reconciliation.Worker.Supervisor

/-! # Restarts respect the policy

Whatever a generation comes to, its supervisor starts the next one only after a failure, only as
often as the policy allows, and not before the wait is over.
-/
namespace Reconciliation

def RestartPolicy.budget : RestartPolicy → Nat
  | never => 0
  | onFailure maxRestarts _ => maxRestarts

theorem RestartPolicy.delay?_eq_some {p : RestartPolicy} {e : Exit} {restarts backoff : Nat}
    (h : p.delay? e restarts = some backoff) :
    e.isFailure = true ∧ restarts < p.budget ∧ p = .onFailure p.budget backoff := by
  cases p with
  | never => cases h
  | onFailure maxRestarts wait =>
    obtain ⟨hmore, hwait⟩ := Option.ite_none_right_eq_some.1 h
    obtain ⟨hfailure, hlt⟩ := Bool.and_eq_true_iff.1 hmore
    rw [← Option.some.inj hwait]
    exact ⟨hfailure, of_decide_eq_true hlt, rfl⟩

theorem RestartPolicy.budget_le_of_delay? {p : RestartPolicy} {e : Exit} {restarts : Nat}
    (h : p.delay? e restarts = none) (hfailure : e.isFailure = true) : p.budget ≤ restarts := by
  cases p with
  | never => exact Nat.zero_le restarts
  | onFailure maxRestarts wait =>
    simpa [delay?, hfailure, budget] using h

theorem RestartPolicy.delay?_mapBackoff (p : RestartPolicy) (f : Nat → Nat) (e : Exit)
    (restarts : Nat) : (p.mapBackoff f).delay? e restarts = (p.delay? e restarts).map f := by
  cases p with
  | never => rfl
  | onFailure maxRestarts wait =>
    simp only [mapBackoff, delay?]
    split <;> rfl

namespace Supervisor

variable {α : Type}

/-- An event, or a generation that breaks off: it panics while it winds up, or its task is lost. -/
inductive Occurrence (α : Type) where
  | event (e : Event α)
  | broken (exit : Exit)
  deriving DecidableEq, Repr

def Occurrence.clock? : Occurrence α → Option Nat
  | .event (.step now) => some now
  | _ => none

def breakOff (s : Supervisor α) (e : Exit) : Supervisor α :=
  if s.stage.isOfGeneration then
    { s with mailbox := s.mailbox.leave receiver, stage := .ended e }
  else s

def occur (s : Supervisor α) : Occurrence α → Supervisor α
  | .event e => s.next e
  | .broken e => s.breakOff e

inductive Milestone where
  | launched
  | starting
  | exited (exit : Exit)
  /-- No actor could be made for the next generation. -/
  | crashed
  | cancelled
  deriving DecidableEq, Repr

def Stage.milestone? : Stage α → Option Milestone
  | spawned => some .launched
  | starting => some .starting
  | ended e => some (.exited e)
  | _ => none

def shown (x y : Stage α) : List Milestone :=
  if y.milestone? = x.milestone? then [] else y.milestone?.toList

def milestones (s : Supervisor α) (o : Occurrence α) : List Milestone :=
  match o with
  | .event .cancel => [.cancelled]
  | .event .crash => if s.crash.isFinished && !s.isFinished then [.crashed] else []
  | _ => shown s.stage (s.occur o).stage

def afterAll (s : Supervisor α) (occurrences : List (Nat × Occurrence α)) : Supervisor α :=
  occurrences.foldl (fun s x => s.occur x.2) s

def annals (s : Supervisor α) (occurrences : List (Nat × Occurrence α)) : List (Nat × Milestone) :=
  history (fun s x => s.occur x.2) (fun s x => (s.milestones x.2).map fun m => (x.1, m)) s
    occurrences

inductive Change (s : Supervisor α) (now : Nat) : Supervisor α → List Milestone → Prop where
  | stay {b : Mailbox α} : Change s now { s with mailbox := b } []
  | cancel {b : Mailbox α} : Change s now { s with mailbox := b, cancelled := true } [.cancelled]
  | work {b : Mailbox α} {x : Stage α} (hbefore : s.stage.isOfGeneration = true)
      (hafter : x.isOfGeneration = true) (hx : x.milestone? = none) :
      Change s now { s with mailbox := b, stage := x } []
  | launch (hstage : s.stage = .launching) (hlive : s.cancelled = false) :
      Change s now { s with generation := s.generation + 1, stage := .spawned } [.launched]
  | begin (hstage : s.stage = .spawned) (hlive : s.cancelled = false) :
      Change s now { s with stage := .starting } [.starting]
  | exit {b : Mailbox α} {e : Exit} (hstage : s.stage.isOfGeneration = true) :
      Change s now { s with mailbox := b, stage := .ended e } [.exited e]
  | crash (hstage : s.stage = .launching) (hlive : s.cancelled = false) :
      Change s now { s with generation := s.generation + 1, stage := .finished } [.crashed]
  | finish {e : Exit} (hstage : s.stage = .ended e)
      (hend : s.cancelled = false → s.policy.delay? e s.restarts = none) :
      Change s now { s with lastExit := some e, stage := .finished } []
  | backOff {e : Exit} {backoff : Nat} (hstage : s.stage = .ended e)
      (hdelay : s.policy.delay? e s.restarts = some backoff) :
      Change s now
        { s with
          lastExit := some e
          restarts := s.restarts + 1
          stage := .backingOff (now + backoff) } []
  | resume {due : Nat} (hstage : s.stage = .backingOff due) (hdue : due ≤ now) :
      Change s now { s with stage := .launching } []
  | abort (hcancelled : s.cancelled = true) :
      Change s now { s with lastExit := some .cancelled, stage := .finished } []

variable {s : Supervisor α} {now : Nat}

theorem Change.of_mailbox {b : Mailbox α} :
    Change s now { s with mailbox := b } (shown s.stage s.stage) := by
  have hshown : shown s.stage s.stage = [] := if_pos rfl
  rw [hshown]
  exact .stay

theorem Change.of_work {b : Mailbox α} {x : Stage α} (hbefore : s.stage.isOfGeneration = true)
    (hafter : x.isOfGeneration = true) (hx : x.milestone? = none) :
    Change s now { s with mailbox := b, stage := x } (shown s.stage x) := by
  have hshown : shown s.stage x = [] := by
    unfold shown
    rw [hx]
    split <;> rfl
  rw [hshown]
  exact .work hbefore hafter hx

theorem receive_change (hstage : s.stage = .receiving) :
    Change s now s.receive (shown s.stage s.receive.stage) := by
  have hbefore : s.stage.isOfGeneration = true := by rw [hstage]; rfl
  unfold receive
  split
  · exact .of_mailbox
  · split
    · exact .of_work hbefore rfl rfl
    · exact .of_work hbefore rfl rfl
    · exact .of_mailbox

theorem notice_change {e : Exit} (hstage : s.stage = .ended e) :
    Change s now (s.notice now e) (shown s.stage (s.notice now e).stage) := by
  rw [hstage]
  by_cases hlive : s.cancelled = true
  · have hnotice : s.notice now e = { s with lastExit := some e, stage := .finished } := if_pos hlive
    rw [hnotice]
    exact .finish hstage fun h => by cases hlive.symm.trans h
  · unfold notice
    dsimp only
    rw [if_neg hlive]
    split
    · next hdelay => exact .finish hstage fun _ => hdelay
    · next backoff hdelay => exact .backOff hstage hdelay

theorem step_change (s : Supervisor α) (now : Nat) :
    Change s now (s.step now).1 (shown s.stage (s.step now).1.stage) := by
  obtain ⟨policy, b, cancelled, generation, restarts, lastExit, stage⟩ := s
  cases stage with
  | launching =>
    cases cancelled with
    | true => exact .abort rfl
    | false => exact .launch rfl rfl
  | spawned =>
    cases cancelled with
    | true => exact .exit rfl
    | false => exact .begin rfl rfl
  | starting =>
    cases cancelled with
    | true => exact .exit rfl
    | false => exact .of_mailbox
  | receiving =>
    cases cancelled with
    | true => exact .of_work rfl rfl rfl
    | false => exact receive_change rfl
  | received m =>
    cases cancelled with
    | true => exact .of_work rfl rfl rfl
    | false => exact .of_work rfl rfl rfl
  | handling m =>
    cases cancelled with
    | true => exact .of_work rfl rfl rfl
    | false => exact .of_mailbox
  | stopping e => exact .exit rfl
  | ended e => exact notice_change rfl
  | backingOff due =>
    cases cancelled with
    | true => exact .abort rfl
    | false =>
      unfold step
      dsimp only
      by_cases hdue : due ≤ now
      · simp only [Bool.false_eq_true, if_false, if_pos hdue]
        exact .resume rfl hdue
      · simp only [Bool.false_eq_true, if_false, if_neg hdue]
        exact .of_mailbox
  | finished => exact .of_mailbox

theorem crash_change (s : Supervisor α) :
    Change s now s.crash (s.milestones (.event .crash)) := by
  obtain ⟨policy, b, cancelled, generation, restarts, lastExit, stage⟩ := s
  cases stage with
  | launching =>
    cases cancelled with
    | true => exact .stay
    | false => exact .crash rfl rfl
  | spawned | starting | receiving | received m | handling m | stopping e | ended e
  | backingOff due | finished => exact .stay

theorem started_change (s : Supervisor α) (r : Started) :
    Change s now (s.started r) (shown s.stage (s.started r).stage) := by
  obtain ⟨policy, b, cancelled, generation, restarts, lastExit, stage⟩ := s
  cases stage with
  | starting =>
    cases r with
    | ready => exact .of_work rfl rfl rfl
    | failed m => exact .exit rfl
    | panicked => exact .exit rfl
  | launching | spawned | receiving | received m | handling m
  | stopping e | ended e | backingOff due | finished => exact .of_mailbox

theorem handled_change (s : Supervisor α) (r : Handled) :
    Change s now (s.handled r) (shown s.stage (s.handled r).stage) := by
  obtain ⟨policy, b, cancelled, generation, restarts, lastExit, stage⟩ := s
  cases stage with
  | handling m =>
    cases r with
    | goOn | stop | failed m => exact .of_work rfl rfl rfl
    | panicked => exact .exit rfl
  | launching | spawned | starting | receiving | received m
  | stopping e | ended e | backingOff due | finished => exact .of_mailbox

theorem breakOff_change (s : Supervisor α) (e : Exit) :
    Change s now (s.breakOff e) (shown s.stage (s.breakOff e).stage) := by
  obtain ⟨policy, b, cancelled, generation, restarts, lastExit, stage⟩ := s
  cases stage with
  | spawned | starting | receiving | received m | handling m | stopping e' => exact .exit rfl
  | launching | ended e' | backingOff due | finished => exact .of_mailbox

theorem occur_change (s : Supervisor α) {o : Occurrence α} (ho : ∀ m ∈ o.clock?, m = now) :
    Change s now (s.occur o) (s.milestones o) := by
  cases o with
  | broken e => exact s.breakOff_change e
  | event e =>
    cases e with
    | mailbox e => exact .of_mailbox
    | step m =>
      obtain rfl := ho m rfl
      exact s.step_change m
    | crash => exact s.crash_change
    | started r => exact s.started_change r
    | handled r => exact s.handled_change r
    | close => exact .of_mailbox
    | cancel => exact .cancel

namespace Milestone

def isStart : Milestone → Bool
  | launched | starting => true
  | exited _ | crashed | cancelled => false

def isCount : Milestone → Bool
  | launched | crashed => true
  | starting | exited _ | cancelled => false

def isTurn : Milestone → Bool
  | launched | starting | exited _ => true
  | crashed | cancelled => false

def isFinal : Milestone → Bool
  | crashed | cancelled => true
  | exited e => !e.isFailure
  | launched | starting => false

def exit? : Milestone → Option Exit
  | exited e => some e
  | launched | starting | crashed | cancelled => none

end Milestone

def lastTurn? (log : List (Nat × Milestone)) : Option (Nat × Milestone) :=
  (log.filter fun x => x.2.isTurn).getLast?

variable {log : List (Nat × Milestone)} {t : Nat} {m : Milestone}

theorem lastTurn?_concat_eq_self (h : m.isTurn = false) :
    lastTurn? (log ++ [(t, m)]) = lastTurn? log := by
  simp [lastTurn?, h]

theorem lastTurn?_concat (h : m.isTurn = true) : lastTurn? (log ++ [(t, m)]) = some (t, m) := by
  simp [lastTurn?, h]

/-- After what showed last, the next generation may start from a moment on. -/
def Admitted (policy : RestartPolicy) (last : Option (Nat × Milestone)) (t : Nat) : Prop :=
  last = none ∨ ∃ n backoff u e, policy = .onFailure n backoff ∧ last = some (u, .exited e) ∧
    e.isFailure = true ∧ u + Clock.span backoff ≤ t

theorem Admitted.mono {policy : RestartPolicy} {last : Option (Nat × Milestone)} {t t' : Nat}
    (h : Admitted policy last t) (hle : t ≤ t') : Admitted policy last t' := by
  rcases h with h | ⟨n, backoff, u, e, hpolicy, hlast, hfailure, hdue⟩
  · exact Or.inl h
  · exact Or.inr ⟨n, backoff, u, e, hpolicy, hlast, hfailure, Nat.le_trans hdue hle⟩

def Fits (policy : RestartPolicy) (past : List (Nat × Milestone)) : Nat × Milestone → Prop
  | (t, .launched) | (t, .crashed) => Admitted policy (lastTurn? past) t
  | (_, .starting) => ∃ u, lastTurn? past = some (u, .launched)
  | (_, .exited _) => ∃ u m, lastTurn? past = some (u, m) ∧ m.isStart = true
  | (_, .cancelled) => True

def Recalls (s : Supervisor α) (log : List (Nat × Milestone)) : Prop :=
  s.lastExit = (lastTurn? log).bind fun x => x.2.exit?

/-- The last generation has ended, and with a failure only when no restart is left. -/
def Spent (policy : RestartPolicy) (s : Supervisor α) (log : List (Nat × Milestone)) : Prop :=
  ∃ u e, lastTurn? log = some (u, .exited e) ∧ (e.isFailure = true → s.restarts = policy.budget)

def Stands (policy : RestartPolicy) (s : Supervisor α) (log : List (Nat × Milestone)) (now : Nat) :
    Stage α → Prop
  | .launching =>
    s.generation = s.restarts ∧ Recalls s log ∧ Admitted policy (lastTurn? log) now
  | .spawned => s.generation = s.restarts + 1 ∧ ∃ u, lastTurn? log = some (u, .launched)
  | .starting | .receiving | .received _ | .handling _ | .stopping _ =>
    s.generation = s.restarts + 1 ∧ ∃ u m, lastTurn? log = some (u, m) ∧ m.isStart = true
  | .ended e =>
    s.generation = s.restarts + 1 ∧ ∃ u, lastTurn? log = some (u, .exited e) ∧ u ≤ now
  | .backingOff due =>
    s.generation = s.restarts ∧ Recalls s log ∧ Admitted policy (lastTurn? log) due
  | .finished => s.generation ≤ s.restarts + 1 ∧ (s.cancelled = false → Recalls s log ∧
      ((∃ u, (u, .crashed) ∈ log) ∨ Spent policy s log))

section stands

variable {policy : RestartPolicy} {x : Stage α}

theorem Stands.generation_le (h : Stands policy s log now x) : s.generation ≤ s.restarts + 1 := by
  cases x with
  | launching | backingOff due => exact Nat.le_trans (Nat.le_of_eq h.1) (Nat.le_succ _)
  | spawned | starting | receiving | received m | handling m | stopping e | ended e =>
    exact Nat.le_of_eq h.1
  | finished => exact h.1

theorem Stands.of_isOfGeneration (h : Stands policy s log now x) (hx : x.isOfGeneration = true) :
    s.generation = s.restarts + 1 ∧ ∃ u m, lastTurn? log = some (u, m) ∧ m.isStart = true := by
  cases x with
  | spawned =>
    obtain ⟨hgeneration, u, hlast⟩ := h
    exact ⟨hgeneration, u, .launched, hlast, rfl⟩
  | starting | receiving | received m | handling m | stopping e => exact h
  | launching | ended e | backingOff due | finished => cases hx

theorem stands_of_isOfGeneration (hx : x.isOfGeneration = true) (hquiet : x.milestone? = none)
    (h : s.generation = s.restarts + 1 ∧ ∃ u m, lastTurn? log = some (u, m) ∧ m.isStart = true) :
    Stands policy s log now x := by
  cases x with
  | receiving | received m | handling m | stopping e => exact h
  | spawned | starting => cases hquiet
  | launching | ended e | backingOff due | finished => cases hx

theorem Stands.mono (h : Stands policy s log now x) (hle : now ≤ t) :
    Stands policy s log t x := by
  cases x with
  | launching =>
    obtain ⟨hgeneration, hrecalls, hadmitted⟩ := h
    exact ⟨hgeneration, hrecalls, hadmitted.mono hle⟩
  | ended e =>
    obtain ⟨hgeneration, u, hlast, hu⟩ := h
    exact ⟨hgeneration, u, hlast, Nat.le_trans hu hle⟩
  | spawned | starting | receiving | received m | handling m | stopping e | backingOff due
  | finished => exact h

theorem Stands.cancel (h : Stands policy s log now x) {b : Mailbox α} :
    Stands policy { s with mailbox := b, cancelled := true } (log ++ [(t, .cancelled)]) now x := by
  have hlast : lastTurn? (log ++ [(t, .cancelled)]) = lastTurn? log := lastTurn?_concat_eq_self rfl
  cases x with
  | finished => exact ⟨h.1, nofun⟩
  | launching | backingOff due | spawned | starting | receiving | received m | handling m
  | stopping e | ended e =>
    simp only [Stands, Recalls, hlast]
    exact h

end stands

structure Standing (policy : RestartPolicy) (s : Supervisor α) (log : List (Nat × Milestone))
    (now : Nat) : Prop where
  obeys : s.policy = policy.mapBackoff Clock.span
  restarts : s.restarts ≤ policy.budget
  generation : log.countP (fun x => x.2.isCount) = s.generation
  stage : Stands policy s log now s.stage
  founded : Founded (Fits policy) log

section change

variable {policy : RestartPolicy} {s' : Supervisor α}

theorem Standing.still (h : Standing policy s log now) (hobeys : s'.policy = s.policy)
    (hrestarts : s'.restarts ≤ policy.budget) (hgeneration : s'.generation = s.generation)
    (hstage : Stands policy s' log t s'.stage) : Standing policy s' (log ++ []) t := by
  rw [List.append_nil]
  exact ⟨hobeys.trans h.obeys, hrestarts, h.generation.trans hgeneration.symm, hstage, h.founded⟩

theorem Standing.reveal (h : Standing policy s log now) (hobeys : s'.policy = s.policy)
    (hrestarts : s'.restarts = s.restarts)
    (hgeneration : s'.generation = s.generation + [m].countP Milestone.isCount)
    (hfits : Fits policy log (t, m)) (hstage : Stands policy s' (log ++ [(t, m)]) t s'.stage) :
    Standing policy s' (log ++ [(t, m)]) t := by
  refine ⟨hobeys.trans h.obeys, ?_, ?_, hstage, h.founded.concat hfits⟩
  · rw [hrestarts]
    exact h.restarts
  · rw [List.countP_append, h.generation, hgeneration]
    rfl

theorem Standing.change {news : List Milestone} (h : Standing policy s log now) (hle : now ≤ t)
    (hchange : Change s t s' news) : Standing policy s' (log ++ news.map fun m => (t, m)) t := by
  have hstands := h.stage.mono hle
  cases hchange with
  | stay => exact h.still rfl h.restarts rfl hstands
  | cancel => exact h.reveal rfl rfl rfl trivial hstands.cancel
  | work hbefore hafter hx =>
    exact h.still rfl h.restarts rfl
      (stands_of_isOfGeneration hafter hx (hstands.of_isOfGeneration hbefore))
  | launch hstage hlive =>
    rw [hstage] at hstands
    obtain ⟨hgeneration, -, hadmitted⟩ := hstands
    exact h.reveal rfl rfl rfl hadmitted ⟨congrArg Nat.succ hgeneration, t, lastTurn?_concat rfl⟩
  | begin hstage hlive =>
    rw [hstage] at hstands
    obtain ⟨hgeneration, hlast⟩ := hstands
    exact h.reveal rfl rfl rfl hlast ⟨hgeneration, t, .starting, lastTurn?_concat rfl, rfl⟩
  | exit hstage =>
    obtain ⟨hgeneration, hlast⟩ := hstands.of_isOfGeneration hstage
    exact h.reveal rfl rfl rfl hlast ⟨hgeneration, t, lastTurn?_concat rfl, Nat.le_refl t⟩
  | crash hstage hlive =>
    rw [hstage] at hstands
    obtain ⟨hgeneration, hrecalls, hadmitted⟩ := hstands
    refine h.reveal rfl rfl rfl hadmitted ⟨Nat.le_of_eq (congrArg Nat.succ hgeneration), ?_⟩
    intro _
    refine ⟨?_, Or.inl ⟨t, List.mem_append_right _ List.mem_cons_self⟩⟩
    rw [Recalls, lastTurn?_concat_eq_self rfl]
    exact hrecalls
  | @finish e hstage hend =>
    rw [hstage] at hstands
    obtain ⟨hgeneration, u, hlast, -⟩ := hstands
    refine h.still rfl h.restarts rfl ⟨Nat.le_of_eq hgeneration, ?_⟩
    intro hlive
    refine ⟨?_, Or.inr ⟨u, e, hlast, ?_⟩⟩
    · rw [Recalls, hlast]
      rfl
    · intro hfailure
      have hdelay := hend hlive
      rw [h.obeys, RestartPolicy.delay?_mapBackoff, Option.map_eq_none_iff] at hdelay
      exact Nat.le_antisymm h.restarts (RestartPolicy.budget_le_of_delay? hdelay hfailure)
  | @backOff e wait hstage hdelay =>
    rw [hstage] at hstands
    obtain ⟨hgeneration, u, hlast, hu⟩ := hstands
    rw [h.obeys, RestartPolicy.delay?_mapBackoff] at hdelay
    obtain ⟨backoff, hallowed, rfl⟩ := Option.map_eq_some_iff.1 hdelay
    obtain ⟨hfailure, hlt, hpolicy⟩ := RestartPolicy.delay?_eq_some hallowed
    refine h.still rfl hlt rfl ⟨hgeneration, ?_, Or.inr ?_⟩
    · rw [Recalls, hlast]
      rfl
    · exact ⟨_, backoff, u, e, hpolicy, hlast, hfailure, Nat.add_le_add_right hu _⟩
  | resume hstage hdue =>
    rw [hstage] at hstands
    obtain ⟨hgeneration, hrecalls, hadmitted⟩ := hstands
    exact h.still rfl h.restarts rfl ⟨hgeneration, hrecalls, hadmitted.mono hdue⟩
  | abort hcancelled =>
    refine h.still rfl h.restarts rfl ⟨hstands.generation_le, ?_⟩
    intro hlive
    cases hcancelled.symm.trans hlive

def IsOver (s : Supervisor α) : Prop :=
  s.cancelled = true ∨ s.stage = .finished ∨ ∃ e, s.stage = .ended e ∧ e.isFailure = false

theorem IsOver.cancelled_of_isOfGeneration (h : s.IsOver)
    (hstage : s.stage.isOfGeneration = true) : s.cancelled = true := by
  rcases h with h | h | ⟨e, h, -⟩
  · exact h
  · rw [h] at hstage
    cases hstage
  · rw [h] at hstage
    cases hstage

theorem Change.isOver {news : List Milestone} (hchange : Change s t s' news) (h : s.IsOver) :
    s'.IsOver ∧ ∀ m ∈ news, m.isStart = false := by
  cases hchange with
  | stay => exact ⟨h, nofun⟩
  | cancel => exact ⟨Or.inl rfl, by simp [Milestone.isStart]⟩
  | work hbefore _ _ => exact ⟨Or.inl (h.cancelled_of_isOfGeneration hbefore), nofun⟩
  | launch hstage hlive =>
    rcases h with h | h | ⟨e, h, -⟩
    · cases hlive.symm.trans h
    · cases hstage.symm.trans h
    · cases hstage.symm.trans h
  | begin hstage hlive =>
    have hcancelled := h.cancelled_of_isOfGeneration (by rw [hstage]; rfl)
    cases hlive.symm.trans hcancelled
  | exit hstage =>
    exact ⟨Or.inl (h.cancelled_of_isOfGeneration hstage), by simp [Milestone.isStart]⟩
  | crash _ _ => exact ⟨Or.inr (Or.inl rfl), by simp [Milestone.isStart]⟩
  | finish _ _ => exact ⟨Or.inr (Or.inl rfl), nofun⟩
  | backOff hstage hdelay =>
    refine ⟨Or.inl ?_, nofun⟩
    rcases h with h | h | ⟨e, h, hfine⟩
    · exact h
    · cases hstage.symm.trans h
    · obtain rfl := Stage.ended.inj (hstage.symm.trans h)
      cases hfine.symm.trans (RestartPolicy.delay?_eq_some hdelay).1
  | resume hstage _ =>
    refine ⟨Or.inl ?_, nofun⟩
    rcases h with h | h | ⟨e, h, -⟩
    · exact h
    · cases hstage.symm.trans h
    · cases hstage.symm.trans h
  | abort _ => exact ⟨Or.inr (Or.inl rfl), nofun⟩

theorem Change.isOver_of_isFinal {news : List Milestone} (hchange : Change s t s' news)
    (hm : m ∈ news) (hfinal : m.isFinal = true) : s'.IsOver := by
  cases hchange with
  | cancel => exact Or.inl rfl
  | crash _ _ => exact Or.inr (Or.inl rfl)
  | @exit b e _ =>
    obtain rfl := List.mem_singleton.1 hm
    exact Or.inr (Or.inr ⟨e, rfl, by simpa [Milestone.isFinal] using hfinal⟩)
  | launch _ _ | begin _ _ =>
    obtain rfl := List.mem_singleton.1 hm
    cases hfinal
  | stay | work _ _ _ | finish _ _ | backOff _ _ | resume _ _ | abort _ => cases hm

theorem Change.stage_eq_finished {news : List Milestone} (hchange : Change s t s' news)
    (h : s.stage = .finished) : s'.stage = .finished := by
  cases hchange with
  | stay | cancel => exact h
  | crash _ _ | finish _ _ | abort _ => rfl
  | work hbefore _ _ | exit hbefore =>
    rw [h] at hbefore
    cases hbefore
  | launch hstage _ | begin hstage _ | backOff hstage _ | resume hstage _ =>
    cases hstage.symm.trans h

theorem Change.stage_eq_of_crashed {news : List Milestone} (hchange : Change s t s' news)
    (hm : .crashed ∈ news) : s'.stage = .finished := by
  cases hchange with
  | crash _ _ => rfl
  | cancel | launch _ _ | begin _ _ | exit _ => simp at hm
  | stay | work _ _ _ | finish _ _ | backOff _ _ | resume _ _ | abort _ => cases hm

structure Ends (s : Supervisor α) (log : List (Nat × Milestone)) : Prop where
  crashed : (∃ t, (t, .crashed) ∈ log) → s.stage = .finished
  isOver : (∃ x ∈ log, x.2.isFinal = true) → s.IsOver
  quiet : log.Pairwise fun x y => x.2.isFinal = true → y.2.isStart = false

theorem Ends.change {news : List Milestone} (h : Ends s log) (hchange : Change s t s' news) :
    Ends s' (log ++ news.map fun m => (t, m)) := by
  constructor
  · rintro ⟨u, hu⟩
    rcases List.mem_append.1 hu with hu | hu
    · exact hchange.stage_eq_finished (h.crashed ⟨u, hu⟩)
    · obtain ⟨m, hm, hmu⟩ := List.mem_map.1 hu
      obtain rfl : m = .crashed := congrArg Prod.snd hmu
      exact hchange.stage_eq_of_crashed hm
  · rintro ⟨x, hx, hfinal⟩
    rcases List.mem_append.1 hx with hx | hx
    · exact (hchange.isOver (h.isOver ⟨x, hx, hfinal⟩)).1
    · obtain ⟨m, hm, rfl⟩ := List.mem_map.1 hx
      exact hchange.isOver_of_isFinal hm hfinal
  · refine List.pairwise_append.2 ⟨h.quiet, ?_, ?_⟩
    · cases hchange with
      | cancel | launch _ _ | begin _ _ | exit _ | crash _ _ =>
        exact List.pairwise_singleton _ _
      | stay | work _ _ _ | finish _ _ | backOff _ _ | resume _ _ | abort _ =>
        exact List.Pairwise.nil
    · intro x hx y hy hfinal
      obtain ⟨m, hm, rfl⟩ := List.mem_map.1 hy
      exact (hchange.isOver (h.isOver ⟨x, hx, hfinal⟩)).2 m hm

end change

/-- The supervisor of an actor as it is spawned: no wait is longer than the longest sleep. -/
def spawn (policy : RestartPolicy) (capacity : Nat) : Supervisor α :=
  start (policy.mapBackoff Clock.span) capacity

theorem standing_afterAll (policy : RestartPolicy) (capacity : Nat)
    {occurrences : List (Nat × Occurrence α)}
    (h : Chronological Occurrence.clock? occurrences) :
    (∃ now, (∀ t, (∀ x ∈ occurrences, x.1 ≤ t) → now ≤ t) ∧
      Standing policy ((spawn policy capacity).afterAll occurrences)
        ((spawn policy capacity).annals occurrences) now) ∧
      Ends ((spawn policy capacity).afterAll occurrences)
        ((spawn policy capacity).annals occurrences) := by
  induction occurrences using List.reverseRecOn with
  | nil =>
    refine ⟨⟨0, fun t _ => Nat.zero_le t, rfl, Nat.zero_le _, rfl, ⟨rfl, rfl, Or.inl rfl⟩, ?_⟩,
      ?_, ?_, ?_⟩
    · intro past x later hsplit
      simp [annals, history] at hsplit
    · rintro ⟨t, ht⟩
      cases ht
    · rintro ⟨x, hx, -⟩
      cases hx
    · exact List.Pairwise.nil
  | append_singleton occurrences x ih =>
    obtain ⟨hbefore, hlast, hread⟩ := chronological_concat.1 h
    obtain ⟨⟨now, hnow, hstanding⟩, hends⟩ := ih hbefore
    have hchange := ((spawn policy capacity).afterAll occurrences).occur_change hread
    have hafter : (spawn policy capacity).afterAll (occurrences ++ [x]) =
        ((spawn policy capacity).afterAll occurrences).occur x.2 := by
      simp [afterAll]
    rw [hafter, annals, history_concat]
    refine ⟨⟨x.1, ?_, hstanding.change (hnow x.1 hlast) hchange⟩, hends.change hchange⟩
    exact fun t ht => ht x (List.mem_append_right _ List.mem_cons_self)

structure Restrained (policy : RestartPolicy) (s : Supervisor α) (log : List (Nat × Milestone)) :
    Prop where
  launches : log.countP (fun x => x.2 == .launched) ≤ policy.budget + 1
  /-- Generations come one after the other, each but the first after a failure and its wait. -/
  turns : Founded (Fits policy) log
  /-- Nothing starts after an exit without a failure, after a crash, or after cancelling. -/
  quiet : log.Pairwise fun x y => x.2.isFinal = true → y.2.isStart = false
  restarts : s.restarts ≤ policy.budget
  generation : log.countP (fun x => x.2.isCount) = s.generation
  recalls : s.isFinished = true → s.cancelled = false → Recalls s log
  /-- Unless it is cancelled or crashes, a supervisor ends once no restart is allowed. -/
  spent : s.isFinished = true → s.cancelled = false → (∀ t, (t, .crashed) ∉ log) →
    Spent policy s log
  crashed : (∃ t, (t, .crashed) ∈ log) → s.isFinished = true

theorem Standing.of_isFinished {policy : RestartPolicy} (h : Standing policy s log now)
    (hfinished : s.isFinished = true) (hlive : s.cancelled = false) :
    Recalls s log ∧ ((∃ u, (u, .crashed) ∈ log) ∨ Spent policy s log) := by
  have hstage := h.stage
  unfold isFinished at hfinished
  split at hfinished
  · next hs =>
    rw [hs] at hstage
    exact hstage.2 hlive
  · cases hfinished

/-- Whatever its generations do, and however others use the mailbox, close and cancel meanwhile. -/
theorem spawn_restrained (policy : RestartPolicy) (capacity : Nat)
    {occurrences : List (Nat × Occurrence α)}
    (h : Chronological Occurrence.clock? occurrences) :
    Restrained policy ((spawn policy capacity).afterAll occurrences)
      ((spawn policy capacity).annals occurrences) := by
  obtain ⟨⟨now, -, hstanding⟩, hends⟩ := standing_afterAll policy capacity h
  refine ⟨?_, hstanding.founded, hends.quiet, hstanding.restarts, hstanding.generation, ?_, ?_, ?_⟩
  · have hle : ((spawn policy capacity).annals occurrences).countP (fun x => x.2 == .launched) ≤
        ((spawn policy capacity).annals occurrences).countP (fun x => x.2.isCount) := by
      apply List.countP_mono_left
      intro x _ hx
      rw [beq_iff_eq.1 hx]
      rfl
    rw [hstanding.generation] at hle
    have hgeneration := hstanding.stage.generation_le
    exact Nat.le_trans hle (Nat.le_trans hgeneration (Nat.succ_le_succ hstanding.restarts))
  · exact fun hfinished hlive => (hstanding.of_isFinished hfinished hlive).1
  · intro hfinished hlive hcrashless
    rcases (hstanding.of_isFinished hfinished hlive).2 with ⟨t, ht⟩ | hspent
    · exact absurd ht (hcrashless t)
    · exact hspent
  · intro hcrashed
    rw [isFinished, hends.crashed hcrashed]

/-- The first generation fails on starting. Fifty moments after that was noticed comes the second
one; it is lost, and there is no third. -/
def twoGenerations : List (Nat × Occurrence Nat) :=
  [(0, .event (.step 0)), (0, .event (.step 0)), (5, .event (.started (.failed "no paper"))),
    (10, .event (.step 10)), (30, .event (.step 30)), (60, .event (.step 60)),
    (60, .event (.step 60)), (61, .event (.step 61)), (61, .event (.started .ready)),
    (62, .event (.mailbox (.trySend 7))), (70, .broken (.joinFailed "gone")),
    (80, .event (.step 80)), (90, .event .close)]

theorem twoGenerations_restrained : Chronological Occurrence.clock? twoGenerations ∧
    Restrained (.onFailure 1 50) ((spawn (.onFailure 1 50) 2).afterAll twoGenerations)
      ((spawn (.onFailure 1 50) 2).annals twoGenerations) ∧
    ((spawn (.onFailure 1 50) 2).afterAll twoGenerations).stage = .finished ∧
    (spawn (.onFailure 1 50) 2).annals twoGenerations =
      [(0, .launched), (0, .starting), (5, .exited (.startupFailed "no paper")), (60, .launched),
        (61, .starting), (70, .exited (.joinFailed "gone"))] := by
  have hclock : Chronological Occurrence.clock? twoGenerations := by decide
  exact ⟨hclock, spawn_restrained (.onFailure 1 50) 2 hclock, rfl, by decide⟩

/-- The first generation fails on starting, at once. The next one is due thirty years later. -/
def thirtyYears : List (Nat × Occurrence Nat) :=
  [(0, .event (.step 0)), (0, .event (.step 0)), (0, .event (.started (.failed "no paper"))),
    (0, .event (.step 0)), (946080000000, .event (.step 946080000000)),
    (946080000000, .event (.step 946080000000))]

/-- Once the wait is over, no actor can be made for the next generation. -/
def unmade : List (Nat × Occurrence Nat) :=
  [(0, .event (.step 0)), (0, .event (.step 0)), (0, .event (.started (.failed "no paper"))),
    (0, .event (.step 0)), (50, .event (.step 50)), (50, .event .crash)]

/-- The next generation need not wait as long as the policy says, and a supervisor that nobody
cancels need not use up its restarts. -/
theorem spawn_not_unconditional :
    (Chronological Occurrence.clock? thirtyYears ∧ 946080000000 < 1000000000000 ∧
      (spawn (.onFailure 1 1000000000000) 2).annals thirtyYears =
        [(0, .launched), (0, .starting), (0, .exited (.startupFailed "no paper")),
          (946080000000, .launched)]) ∧
    (Chronological Occurrence.clock? unmade ∧
      (spawn (.onFailure 3 50) 2).afterAll unmade =
        { (spawn (.onFailure 3 50) 2) with
          generation := 2
          restarts := 1
          lastExit := some (.startupFailed "no paper")
          stage := .finished } ∧
      (Exit.startupFailed "no paper").isFailure = true ∧
      1 < (RestartPolicy.onFailure 3 50).budget) := by
  decide

end Supervisor

end Reconciliation
