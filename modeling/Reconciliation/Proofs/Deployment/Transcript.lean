import Mathlib.Data.List.TakeWhile
import Reconciliation.Deployment.Run

/-! # What a run says to the container

A transcript lists calls with their responses, the oldest first. Every response is allowed, so what
holds of all transcripts of a run holds whatever the container does.
-/
namespace Reconciliation

structure Exchange where
  call : Call
  response : Response

abbrev Transcript := List Exchange

namespace Exchange

def path (x : Exchange) : String := x.call.path

def succeeds (x : Exchange) : Bool :=
  match x.response with
  | .ok _ => true
  | .error _ => false

/-- The number of the deployment at the path of the call, if one stands there; given is what stood
there before the call. -/
def standing (x : Exchange) (before : Option Nat) : Option Nat :=
  match x.call, x.response with
  | .create _ _, .ok number => some number
  | .destroy _ _, .ok _ => none
  | _, _ => before

/-- What the path of the call was last successfully created or reloaded with; given is what it was
before the call. -/
def deployed (x : Exchange) (before : Option Accepted) : Option Accepted :=
  match x.response with
  | .ok _ => x.call.application?.or before
  | .error _ => before

end Exchange

namespace Transcript

def about (log : Transcript) (path : String) : Transcript :=
  log.filter fun x => x.path == path

def operations (log : Transcript) : List Operation :=
  log.map fun x => x.call.operation

/-- The number that the latest successful creation at a path was answered with, unless the
deployment has been destroyed since. -/
def standing? (log : Transcript) (path : String) : Option Nat :=
  (log.about path).foldl (fun before x => x.standing before) none

/-- The application of the last successful creation or reload at a path. -/
def deployed? (log : Transcript) (path : String) : Option Accepted :=
  (log.about path).foldl (fun before x => x.deployed before) none

@[simp] theorem about_nil (path : String) : about [] path = [] := rfl

theorem about_append (log log' : Transcript) (path : String) :
    about (log ++ log') path = log.about path ++ log'.about path :=
  List.filter_append log log'

theorem about_cons (x : Exchange) (log : Transcript) (path : String) :
    about (x :: log) path = if x.path = path then x :: log.about path else log.about path := by
  by_cases h : x.path = path
  · simp [about, h]
  · simp [about, h]

def recording {σ : Type} (respond : σ → Call → Response × σ) :
    σ × Transcript → Call → Response × (σ × Transcript)
  | (s, log), c =>
    let (response, s) := respond s c
    (response, s, log ++ [⟨c, response⟩])

end Transcript

namespace Task

theorem weight_followUp (t : Task) (c : Call) (response : Response) :
    (t.followUp c response).foldr (fun t n => t.weight + n) 0 < t.weight := by
  unfold followUp
  split
  · exact Nat.lt_succ_self 2
  · exact Nat.lt_succ_self 1
  · cases t <;> exact Nat.zero_lt_succ _

end Task

namespace Run

inductive Exchanges : Run → Transcript → Run → Prop where
  | refl (r : Run) : Exchanges r [] r
  | turn {r r' : Run} {c : Call} {calls : Transcript} (response : Response)
      (h : r.call? = some c) (hrest : Exchanges (r.answer response) calls r') :
      Exchanges r (⟨c, response⟩ :: calls) r'

theorem agenda_of_call?_eq_none {r : Run} (h : r.call? = none) :
    ∀ t ∈ r.agenda, t.call? r.live = none := by
  have hd : r.due = [] := by
    by_contra hne
    have ht : ((r.due.head hne).call? r.live).isNone = false :=
      List.head_dropWhile_not (fun t : Task => (t.call? r.live).isNone) hne
    have hhead : r.due.head? = some (r.due.head hne) := List.head?_eq_some_head hne
    rw [call?, hhead, Option.bind_some] at h
    simp [h] at ht
  intro t ht
  simpa using List.dropWhile_eq_nil_iff.1 hd t ht

theorem call?_eq_none {r : Run} (h : ∀ t ∈ r.agenda, t.call? r.live = none) : r.call? = none := by
  have hd : r.due = [] := List.dropWhile_eq_nil_iff.2 fun t ht => by simp [h t ht]
  simp [call?, hd]

theorem drive_of_call?_eq_none {σ : Type} (respond : σ → Call → Response × σ) {r : Run} (s : σ)
    (h : r.call? = none) : r.drive respond s = (r, s) := by
  unfold drive
  cases r.weight with
  | zero => rfl
  | succ n => simp [driveFor, h]

theorem of_call? {r : Run} {c : Call} (h : r.call? = some c) :
    ∃ idle t rest, r.agenda = idle ++ t :: rest ∧ (∀ u ∈ idle, u.call? r.live = none) ∧
      t.call? r.live = some c ∧
      ∀ response, r.answer response =
        { r with
          live := r.live.after c response
          report := r.report.add c response
          agenda := t.followUp c response ++ rest } := by
  obtain ⟨t, hhead, hcall⟩ := Option.bind_eq_some_iff.1 h
  obtain ⟨rest, hdue⟩ := List.head?_eq_some_iff.1 hhead
  refine ⟨r.agenda.takeWhile fun t => (t.call? r.live).isNone, t, rest, ?_, ?_, hcall, ?_⟩
  · rw [← hdue]
    exact (List.takeWhile_append_dropWhile).symm
  · intro u hu
    simpa using List.mem_takeWhile_imp hu
  · intro response
    simp only [answer, hdue, hcall]

theorem weight_answer_lt {r : Run} {c : Call} (h : r.call? = some c) (response : Response) :
    (r.answer response).weight < r.weight := by
  obtain ⟨idle, t, rest, hagenda, -, -, hanswer⟩ := of_call? h
  have hsum : ∀ xs : List Task, ∀ n, xs.foldr (fun t n => t.weight + n) n =
      xs.foldr (fun t n => t.weight + n) 0 + n := by
    intro xs n
    induction xs with
    | nil => simp
    | cons x xs ih => simp only [List.foldr_cons, ih]; omega
  have hlt := t.weight_followUp c response
  simp only [hanswer, weight, hagenda, List.foldr_append, List.foldr_cons]
  rw [hsum (t.followUp c response), hsum idle]
  omega

theorem call?_of_weight_zero {r : Run} (h : r.weight = 0) : r.call? = none := by
  cases hc : r.call? with
  | none => rfl
  | some c =>
    have := weight_answer_lt hc (.ok 0)
    omega

/-- A driven run makes its calls one after the other until none is left to make. -/
theorem driveFor_recording {σ : Type} (respond : σ → Call → Response × σ) (n : Nat) (r : Run)
    (s : σ) (log : Transcript) (h : r.weight ≤ n) :
    ∃ r' s' calls, r.driveFor (Transcript.recording respond) n (s, log) = (r', s', log ++ calls) ∧
      r.Exchanges calls r' ∧ r'.call? = none := by
  induction n generalizing r s log with
  | zero =>
    exact ⟨r, s, [], by simp [driveFor], .refl r, call?_of_weight_zero (Nat.le_zero.1 h)⟩
  | succ n ih =>
    cases hc : r.call? with
    | none => exact ⟨r, s, [], by simp [driveFor, hc], .refl r, hc⟩
    | some c =>
      have hlt := weight_answer_lt hc (respond s c).1
      obtain ⟨r', s', calls, hd, he, hn⟩ :=
        ih (r.answer (respond s c).1) (respond s c).2 (log ++ [⟨c, (respond s c).1⟩]) (by omega)
      refine ⟨r', s', ⟨c, (respond s c).1⟩ :: calls, ?_, .turn _ hc he, hn⟩
      simp only [driveFor, hc, Transcript.recording]
      rw [hd, List.append_assoc]
      rfl

theorem drive_recording {σ : Type} (respond : σ → Call → Response × σ) (r : Run) (s : σ)
    (log : Transcript) :
    ∃ r' s' calls, r.drive (Transcript.recording respond) (s, log) = (r', s', log ++ calls) ∧
      r.Exchanges calls r' ∧ r'.call? = none :=
  driveFor_recording respond r.weight r s log (Nat.le_refl _)

theorem Exchanges.forgets_eq {r r' : Run} {calls : Transcript} (h : r.Exchanges calls r') :
    r'.forgets = r.forgets := by
  induction h with
  | refl r => rfl
  | turn response h _ ih =>
    obtain ⟨_, _, _, -, -, -, hanswer⟩ := of_call? h
    rw [ih, hanswer]

end Run

end Reconciliation
