import Reconciliation.Proofs.Deployment.Transcript
import Reconciliation.Proofs.Dictionary

/-! # Each path is run for itself

A run is told path by path: the tasks of a path lead from one live entry to another, and for a run
towards accepted applications there are nine ways in which that can go.
-/
namespace Reconciliation

namespace Task

def path : Task → String
  | retire p | align p _ | replace p _ | restore p _ => p

def callAt (l : Option Live) : Task → Option Call
  | retire p => l.map fun x => .destroy p x.handle
  | align p app =>
    match l with
    | none => some (.create p app)
    | some x =>
      if x.fingerprint.application ≠ app.id ∨ x.fingerprint = app.fingerprint then none
      else some (.reload p x.handle app)
  | replace p _ => l.map fun x => .destroy p x.handle
  | restore p app => some (.create p app)

theorem call?_eq (t : Task) (live : LiveMap) : t.call? live = t.callAt (live.get? t.path) := by
  cases t <;> rfl

theorem path_of_callAt {t : Task} {l : Option Live} {c : Call} (h : t.callAt l = some c) :
    c.path = t.path := by
  cases t with
  | retire p =>
    obtain ⟨x, -, rfl⟩ := Option.map_eq_some_iff.1 h
    rfl
  | align p app =>
    cases l with
    | none =>
      obtain rfl := Option.some.inj h
      rfl
    | some x =>
      simp only [callAt] at h
      split at h
      · cases h
      · obtain rfl := Option.some.inj h
        rfl
  | replace p app =>
    obtain ⟨x, -, rfl⟩ := Option.map_eq_some_iff.1 h
    rfl
  | restore p app =>
    obtain rfl := Option.some.inj h
    rfl

theorem path_followUp {t u : Task} {c : Call} {response : Response}
    (h : u ∈ t.followUp c response) : u.path = t.path := by
  unfold followUp at h
  split at h
  · obtain rfl := List.mem_singleton.1 h
    rfl
  · obtain rfl := List.mem_singleton.1 h
    rfl
  · cases h

end Task

def Call.leaves (c : Call) (l : Option Live) : Response → Option Live
  | .error _ => l
  | .ok number =>
    match c with
    | .create _ app => some ⟨number, app.fingerprint⟩
    | .reload _ handle app => some ⟨handle, app.fingerprint⟩
    | .destroy _ _ => none

theorem LiveMap.get?_after (live : LiveMap) (c : Call) (response : Response) (p : String) :
    (live.after c response).get? p =
      if c.path = p then c.leaves (live.get? p) response else live.get? p := by
  cases response with
  | error why => simp [LiveMap.after, Call.leaves]
  | ok number =>
    cases c with
    | create q app => exact Dictionary.get?_insert live q p _
    | reload q handle app => exact Dictionary.get?_insert live q p _
    | destroy q handle => exact Dictionary.get?_erase live q p

/-- The tasks of one path lead from a live entry to another by these exchanges. -/
inductive Lane : Option Live → List Task → Transcript → Option Live → Prop where
  | done (l : Option Live) : Lane l [] [] l
  | idle {l l' : Option Live} {t : Task} {ts : List Task} {xs : Transcript}
      (h : t.callAt l = none) (hrest : Lane l ts xs l') : Lane l (t :: ts) xs l'
  | call {l l' : Option Live} {t : Task} {ts : List Task} {xs : Transcript} {c : Call}
      (response : Response) (h : t.callAt l = some c)
      (hrest : Lane (c.leaves l response) (t.followUp c response ++ ts) xs l') :
      Lane l (t :: ts) (⟨c, response⟩ :: xs) l'

namespace Lane

theorem idle_append {l l' : Option Live} {idle ts : List Task} {xs : Transcript}
    (h : ∀ t ∈ idle, t.callAt l = none) (hrest : Lane l ts xs l') : Lane l (idle ++ ts) xs l' := by
  induction idle with
  | nil => exact hrest
  | cons t idle ih =>
    exact .idle (h t List.mem_cons_self) (ih fun u hu => h u (List.mem_cons_of_mem t hu))

end Lane

namespace Run

def tasksAt (r : Run) (p : String) : List Task :=
  r.agenda.filter fun t => t.path == p

theorem idle_tasksAt {r : Run} {p : String} {tasks : List Task}
    (h : ∀ t ∈ tasks, t.call? r.live = none) :
    ∀ t ∈ tasks.filter (fun t => t.path == p), t.callAt (r.live.get? p) = none := by
  intro t ht
  obtain ⟨hm, hp⟩ := List.mem_filter.1 ht
  have hidle := h t hm
  rwa [Task.call?_eq, beq_iff_eq.1 hp] at hidle

theorem Exchanges.lane {r r' : Run} {calls : Transcript} (h : r.Exchanges calls r')
    (hend : r'.call? = none) (p : String) :
    Lane (r.live.get? p) (r.tasksAt p) (calls.about p) (r'.live.get? p) := by
  induction h with
  | refl r =>
    have hidle := idle_tasksAt (p := p) (agenda_of_call?_eq_none hend)
    simpa [tasksAt] using Lane.idle_append hidle (Lane.done _)
  | @turn r r' c calls response hc _ ih =>
    obtain ⟨idle, t, rest, hagenda, hidle, hcall, hanswer⟩ := of_call? hc
    have ih := ih hend
    rw [Task.call?_eq] at hcall
    have hpath := Task.path_of_callAt hcall
    have hfollow : (t.followUp c response).filter (fun u => u.path == p) =
        if t.path = p then t.followUp c response else [] := by
      split
      · rename_i hp
        exact List.filter_eq_self.2 fun u hu => by simp [Task.path_followUp hu, hp]
      · rename_i hp
        exact List.filter_eq_nil_iff.2 fun u hu => by simp [Task.path_followUp hu, hp]
    simp only [hanswer, tasksAt, List.filter_append, hfollow, LiveMap.get?_after, hpath] at ih
    rw [tasksAt, hagenda, List.filter_append, Transcript.about_cons]
    apply Lane.idle_append (idle_tasksAt hidle)
    by_cases hp : t.path = p
    · rw [if_pos (show (Exchange.mk c response).path = p from hpath.trans hp),
        List.filter_cons_of_pos (by simpa using hp)]
      rw [if_pos hp, if_pos hp] at ih
      rw [hp] at hcall
      exact .call response hcall ih
    · rw [if_neg (show ¬ (Exchange.mk c response).path = p from fun h => hp (hpath.symm.trans h)),
        List.filter_cons_of_neg (by simpa using hp)]
      rw [if_neg hp, if_neg hp] at ih
      simpa using ih

end Run

namespace Run

def isStale (l : Option Live) (want : Option Accepted) : Bool :=
  match l, want with
  | none, _ => false
  | some _, none => true
  | some x, some app => app.id != x.fingerprint.application

def plan (p : String) (l : Option Live) (want : Option Accepted) : List Task :=
  (if isStale l want then [.retire p] else []) ++ (want.map fun app => .align p app).toList

def wanted (apps : List Accepted) : Dictionary Accepted :=
  .ofList (apps.map fun a => (a.base, a))

theorem filter_stale (live : LiveMap) (accepted : Dictionary Accepted) (p : String) :
    (stale live accepted).filter (fun q => q == p) =
      if isStale (live.get? p) (accepted.get? p) then [p] else [] := by
  have hstale : stale live accepted =
      (live.entries.filter fun e => isStale (some e.2) (accepted.get? e.1)).map Prod.fst := by
    unfold stale
    congr 2
    funext e
    cases accepted.get? e.1 <;> rfl
  have hfilter : (live.entries.filter fun e => e.1 == p && isStale (some e.2) (accepted.get? e.1)) =
      (live.entries.filter fun e => e.1 == p).filter fun e =>
        isStale (some e.2) (accepted.get? p) := by
    rw [List.filter_filter]
    apply List.filter_congr
    intro e _
    by_cases hp : e.1 = p
    · rw [hp, Bool.and_comm]
    · rw [beq_false_of_ne hp, Bool.false_and, Bool.and_false]
  have hpath : (stale live accepted).filter (fun q => q == p) =
      (live.entries.filter fun e => e.1 == p && isStale (some e.2) (accepted.get? e.1)).map
        Prod.fst := by
    rw [hstale, List.filter_map, List.filter_filter]
    rfl
  rw [hpath, hfilter, Dictionary.filter_entries]
  cases live.get? p with
  | none => rfl
  | some x =>
    cases hs : isStale (some x) (accepted.get? p) <;> simp [hs]

theorem tasksAt_towards (live : LiveMap) (apps : List Accepted) (p : String) :
    (towards live apps).tasksAt p = plan p (live.get? p) ((wanted apps).get? p) := by
  have hretire : ((stale live (wanted apps)).map Task.retire).filter (fun t => t.path == p) =
      ((stale live (wanted apps)).filter fun q => q == p).map Task.retire := by
    rw [List.filter_map]
    rfl
  have halign : ((wanted apps).entries.map fun e => Task.align e.1 e.2).filter
      (fun t => t.path == p) =
      ((wanted apps).entries.filter fun e => e.1 == p).map fun e => Task.align e.1 e.2 := by
    rw [List.filter_map]
    rfl
  change ((stale live (wanted apps)).map Task.retire ++
    (wanted apps).entries.map fun e => Task.align e.1 e.2).filter (fun t => t.path == p) = _
  rw [List.filter_append, hretire, halign, filter_stale, Dictionary.filter_entries, plan]
  congr 1
  · split <;> rfl
  · cases (wanted apps).get? p <;> rfl

end Run

inductive Founding (p : String) (app : Accepted) : Transcript → Option Live → Prop where
  | stands (number : Nat) :
      Founding p app [⟨.create p app, .ok number⟩] (some ⟨number, app.fingerprint⟩)
  | fails (why : String) : Founding p app [⟨.create p app, .error why⟩] none

/-- How a run can go at a path: from what is live and wanted there to what is live in the end. -/
inductive Course (p : String) :
    Option Live → Option Accepted → Transcript → Option Live → Prop where
  | vacant : Course p none none [] none
  | retired {x : Live} (number : Nat) :
      Course p (some x) none [⟨.destroy p x.handle, .ok number⟩] none
  | lingering {x : Live} (why : String) :
      Course p (some x) none [⟨.destroy p x.handle, .error why⟩] (some x)
  | founded {app : Accepted} {xs : Transcript} {l' : Option Live} (h : Founding p app xs l') :
      Course p none (some app) xs l'
  | occupied {x : Live} {app : Accepted} (hid : x.fingerprint.application ≠ app.id)
      (why : String) :
      Course p (some x) (some app) [⟨.destroy p x.handle, .error why⟩] (some x)
  | succeeded {x : Live} {app : Accepted} (hid : x.fingerprint.application ≠ app.id)
      (number : Nat) {xs : Transcript} {l' : Option Live} (h : Founding p app xs l') :
      Course p (some x) (some app) (⟨.destroy p x.handle, .ok number⟩ :: xs) l'
  | unchanged {x : Live} {app : Accepted} (hf : x.fingerprint = app.fingerprint) :
      Course p (some x) (some app) [] (some x)
  | reloaded {x : Live} {app : Accepted} (hf : x.fingerprint ≠ app.fingerprint) (number : Nat) :
      Course p (some x) (some app) [⟨.reload p x.handle app, .ok number⟩]
        (some ⟨x.handle, app.fingerprint⟩)
  | stuck {x : Live} {app : Accepted} (hf : x.fingerprint ≠ app.fingerprint) (why why' : String) :
      Course p (some x) (some app)
        [⟨.reload p x.handle app, .error why⟩, ⟨.destroy p x.handle, .error why'⟩] (some x)
  | replaced {x : Live} {app : Accepted} (hf : x.fingerprint ≠ app.fingerprint) (why : String)
      (number : Nat) {xs : Transcript} {l' : Option Live} (h : Founding p app xs l') :
      Course p (some x) (some app)
        (⟨.reload p x.handle app, .error why⟩ :: ⟨.destroy p x.handle, .ok number⟩ :: xs) l'

namespace Lane

variable {p : String} {l l' : Option Live} {x : Live} {app : Accepted} {xs : Transcript}

theorem eq_of_nil (h : Lane l [] xs l') : xs = [] ∧ l' = l := by
  cases h
  exact ⟨rfl, rfl⟩

theorem create_founding {t : Task} (hcall : t.callAt none = some (.create p app))
    (hfollow : ∀ response, t.followUp (.create p app) response = [])
    (h : Lane none [t] xs l') : Founding p app xs l' := by
  cases h with
  | idle h _ => simp [hcall] at h
  | call response h hrest =>
    obtain rfl := Option.some.inj (hcall.symm.trans h)
    rw [hfollow] at hrest
    obtain ⟨rfl, rfl⟩ := eq_of_nil hrest
    cases response with
    | ok number => exact .stands number
    | error why => exact .fails why

theorem restore_founding (h : Lane none [.restore p app] xs l') : Founding p app xs l' :=
  create_founding rfl (fun response => by cases response <;> rfl) h

theorem align_founding (h : Lane none [.align p app] xs l') : Founding p app xs l' :=
  create_founding rfl (fun response => by cases response <;> rfl) h

theorem align_other (hid : x.fingerprint.application ≠ app.id)
    (h : Lane (some x) [.align p app] xs l') : xs = [] ∧ l' = some x := by
  cases h with
  | idle _ hrest => exact eq_of_nil hrest
  | call response h _ => simp [Task.callAt, hid] at h

theorem align_course (hid : x.fingerprint.application = app.id)
    (h : Lane (some x) [.align p app] xs l') : Course p (some x) (some app) xs l' := by
  by_cases hf : x.fingerprint = app.fingerprint
  · cases h with
    | idle _ hrest =>
      obtain ⟨rfl, rfl⟩ := eq_of_nil hrest
      exact .unchanged hf
    | call response h _ => simp [Task.callAt, hf] at h
  · have hcall : (Task.align p app).callAt (some x) = some (.reload p x.handle app) := by
      simp [Task.callAt, hid, hf]
    cases h with
    | idle h _ => simp [hcall] at h
    | call response h hrest =>
      obtain rfl := Option.some.inj (hcall.symm.trans h)
      cases response with
      | ok number =>
        obtain ⟨rfl, rfl⟩ := eq_of_nil hrest
        exact .reloaded hf number
      | error why =>
        cases hrest with
        | idle h _ => cases h
        | call response h hrest =>
          obtain rfl := Option.some.inj h
          cases response with
          | ok number => exact .replaced hf why number (restore_founding hrest)
          | error why' =>
            obtain ⟨rfl, rfl⟩ := eq_of_nil hrest
            exact .stuck hf why why'

/-- A task that destroys what is live does so or leaves everything as it is. -/
theorem of_retire {ts : List Task} (h : Lane (some x) (.retire p :: ts) xs l') :
    (∃ number ys, xs = ⟨.destroy p x.handle, .ok number⟩ :: ys ∧ Lane none ts ys l') ∨
      ∃ why ys, xs = ⟨.destroy p x.handle, .error why⟩ :: ys ∧ Lane (some x) ts ys l' := by
  cases h with
  | idle h _ => cases h
  | call response h hrest =>
    obtain rfl := Option.some.inj h
    cases response with
    | ok number => exact Or.inl ⟨number, _, rfl, hrest⟩
    | error why => exact Or.inr ⟨why, _, rfl, hrest⟩

theorem plan_course {want : Option Accepted} (h : Lane l (Run.plan p l want) xs l') :
    Course p l want xs l' := by
  cases l with
  | none =>
    cases want with
    | none =>
      obtain ⟨rfl, rfl⟩ := eq_of_nil h
      exact .vacant
    | some app => exact .founded (align_founding h)
  | some x =>
    cases want with
    | none =>
      rcases of_retire h with ⟨number, ys, rfl, hrest⟩ | ⟨why, ys, rfl, hrest⟩
      · obtain ⟨rfl, rfl⟩ := eq_of_nil hrest
        exact .retired number
      · obtain ⟨rfl, rfl⟩ := eq_of_nil hrest
        exact .lingering why
    | some app =>
      by_cases hid : x.fingerprint.application = app.id
      · have hplan : Run.plan p (some x) (some app) = [.align p app] := by
          simp [Run.plan, Run.isStale, hid]
        rw [hplan] at h
        exact align_course hid h
      · have hplan : Run.plan p (some x) (some app) = [.retire p, .align p app] := by
          simp [Run.plan, Run.isStale, Ne.symm hid]
        rw [hplan] at h
        rcases of_retire h with ⟨number, ys, rfl, hrest⟩ | ⟨why, ys, rfl, hrest⟩
        · exact .succeeded hid number (align_founding hrest)
        · obtain ⟨rfl, rfl⟩ := align_other hid hrest
          exact .occupied hid why

end Lane

/-- Whatever the container does, a run towards accepted applications takes one of the courses at
every path. -/
theorem Run.Exchanges.course {live : LiveMap} {apps : List Accepted} {calls : Transcript}
    {r' : Run} (h : (towards live apps).Exchanges calls r') (hend : r'.call? = none) (p : String) :
    Course p (live.get? p) ((wanted apps).get? p) (calls.about p) (r'.live.get? p) := by
  have hlane := h.lane hend p
  rw [tasksAt_towards] at hlane
  exact Lane.plan_course hlane

namespace Course

variable {p : String} {l l' : Option Live} {x : Live} {app : Accepted} {xs : Transcript}

theorem live_of_succeeds (h : Course p l (some app) xs l')
    (hok : ∀ x ∈ xs, x.succeeds = true) : ∃ x, l' = some x ∧ x.fingerprint = app.fingerprint := by
  have hfounding : ∀ ys, Founding p app ys l' → (∀ y ∈ ys, y.succeeds = true) →
      ∃ x, l' = some x ∧ x.fingerprint = app.fingerprint := by
    intro ys h hok
    cases h with
    | stands number => exact ⟨_, rfl, rfl⟩
    | fails why => cases hok _ List.mem_cons_self
  cases h with
  | founded h => exact hfounding _ h hok
  | occupied hid why => cases hok _ List.mem_cons_self
  | succeeded hid number h =>
    exact hfounding _ h fun y hy => hok y (List.mem_cons_of_mem _ hy)
  | unchanged hf => exact ⟨_, rfl, hf⟩
  | reloaded hf number => exact ⟨_, rfl, rfl⟩
  | stuck hf why why' => cases hok _ List.mem_cons_self
  | replaced hf why number h => cases hok _ List.mem_cons_self

theorem vacant_of_succeeds (h : Course p l none xs l') (hok : ∀ x ∈ xs, x.succeeds = true) :
    l' = none := by
  cases h with
  | vacant => rfl
  | retired number => rfl
  | lingering why => cases hok _ List.mem_cons_self

/-- What is live with the fingerprint that is wanted is let be, whatever the container does. -/
theorem eq_unchanged (h : Course p (some x) (some app) xs l')
    (hf : x.fingerprint = app.fingerprint) : xs = [] ∧ l' = some x := by
  have hid : x.fingerprint.application = app.id := hf ▸ rfl
  cases h with
  | occupied hne why => exact absurd hid hne
  | succeeded hne number h => exact absurd hid hne
  | unchanged _ => exact ⟨rfl, rfl⟩
  | reloaded hne number => exact absurd hf hne
  | stuck hne why why' => exact absurd hf hne
  | replaced hne why number h => exact absurd hf hne

end Course

end Reconciliation
