import Reconciliation.Deployment.Basic

/-! # Runs

A machine that asks for the next call and goes on with the response. First it destroys what is
stale; then it looks at each accepted path. A failed reload leads to an attempt to replace.
-/
namespace Reconciliation

inductive Task where
  /-- Destroy a deployment that nothing calls for. -/
  | retire (path : String)
  /-- Bring a path in line with an application. -/
  | align (path : String) (application : Accepted)
  /-- Destroy a deployment that could not be reloaded, to create it anew. -/
  | replace (path : String) (application : Accepted)
  /-- Create what has just been destroyed. -/
  | restore (path : String) (application : Accepted)
  deriving DecidableEq, Repr

namespace Task

/-- The call that a task comes down to; a task that needs none is done already. A path that still
holds another application is left alone. -/
def call? (live : LiveMap) : Task → Option Call
  | retire path => (live.get? path).map fun l => .destroy path l.handle
  | align path app =>
    match live.get? path with
    | none => some (.create path app)
    | some l =>
      if l.fingerprint.application ≠ app.id ∨ l.fingerprint = app.fingerprint then none
      else some (.reload path l.handle app)
  | replace path _ => (live.get? path).map fun l => .destroy path l.handle
  | restore path app => some (.create path app)

def followUp : Task → Call → Response → List Task
  | align path app, .reload _ _ _, .error _ => [replace path app]
  | replace path app, _, .ok _ => [restore path app]
  | _, _, _ => []

def weight : Task → Nat
  | retire _ => 1
  | align _ _ => 3
  | replace _ _ => 2
  | restore _ _ => 1

end Task

def LiveMap.after (live : LiveMap) (c : Call) : Response → LiveMap
  | .error _ => live
  | .ok number =>
    match c with
    | .create path app => live.insert path ⟨number, app.fingerprint⟩
    | .reload path handle app => live.insert path ⟨handle, app.fingerprint⟩
    | .destroy path _ => live.erase path

structure Run where
  live : LiveMap
  report : Report
  agenda : List Task
  /-- Whether the run forgets all deployments at its end. -/
  forgets : Bool
  deriving DecidableEq, Repr

namespace Run

/-- Deployments whose path is not accepted, or accepted for another application. -/
def stale (live : LiveMap) (accepted : Dictionary Accepted) : List String :=
  (live.entries.filter fun e =>
    match accepted.get? e.1 with
    | some app => app.id != e.2.fingerprint.application
    | none => true).map (·.1)

def towards (live : LiveMap) (apps : List Accepted) : Run :=
  let accepted := Dictionary.ofList (apps.map fun a => (a.base, a))
  { live
    report := .empty
    agenda := (stale live accepted).map .retire ++ accepted.entries.map fun e => .align e.1 e.2
    forgets := false }

/-- A run that destroys every deployment and forgets those that it could not destroy. -/
def teardown (live : LiveMap) : Run :=
  { live, report := .empty, agenda := live.keys.map .retire, forgets := true }

/-- What is left of the agenda from the first task on that needs a call. -/
def due (r : Run) : List Task :=
  r.agenda.dropWhile fun t => (t.call? r.live).isNone

def call? (r : Run) : Option Call :=
  r.due.head?.bind (Task.call? r.live)

def answer (r : Run) (response : Response) : Run :=
  match r.due with
  | [] => r
  | t :: rest =>
    match t.call? r.live with
    | none => r
    | some c =>
      { r with
        live := r.live.after c response
        report := r.report.add c response
        agenda := t.followUp c response ++ rest }

def finalLive (r : Run) : LiveMap :=
  if r.forgets then .empty else r.live

def weight (r : Run) : Nat :=
  r.agenda.foldr (fun t n => t.weight + n) 0

def driveFor {σ : Type} (respond : σ → Call → Response × σ) : Nat → Run → σ → Run × σ
  | 0, r, s => (r, s)
  | n + 1, r, s =>
    match r.call? with
    | none => (r, s)
    | some c =>
      let (response, s) := respond s c
      driveFor respond n (r.answer response) s

def drive {σ : Type} (respond : σ → Call → Response × σ) (r : Run) (s : σ) : Run × σ :=
  driveFor respond r.weight r s

end Run

end Reconciliation
