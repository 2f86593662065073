import Reconciliation.Status

/-! # The status board

The board shows the latest status and, apart from it, a notice that says whether there is one. Both
are written one after the other, and watchers look at the notice first.
-/
namespace Reconciliation

inductive Notice where
  /-- No pass has been completed. -/
  | pending
  | published (pass : Nat)
  /-- Nothing will be published again. -/
  | unpublished
  deriving DecidableEq, Repr

namespace StatusBoard

inductive Stage where
  /-- About to look at the notice. -/
  | looking
  /-- Has seen a publication and is about to look at the status. -/
  | checking
  | waiting
  deriving DecidableEq, Repr

structure Watcher where
  id : Nat
  /-- The change count that the status has to cover. -/
  target : Nat
  /-- The version of the notice that was seen last. -/
  seen : Nat
  stage : Stage
  deriving DecidableEq, Repr

end StatusBoard

structure StatusBoard where
  current : Option Status
  notice : Notice
  version : Nat
  watchers : List StatusBoard.Watcher
  deriving DecidableEq, Repr

namespace StatusBoard

def empty : StatusBoard := ⟨none, .pending, 0, []⟩

def display (b : StatusBoard) (s : Option Status) : StatusBoard :=
  { b with current := s }

def announce (b : StatusBoard) (n : Notice) : StatusBoard :=
  { b with notice := n, version := b.version + 1 }

def publish (b : StatusBoard) (s : Status) : StatusBoard :=
  (b.display (some s)).announce (.published s.pass)

def unpublish (b : StatusBoard) : StatusBoard :=
  (b.display none).announce .unpublished

def watcher? (b : StatusBoard) (c : Nat) : Option Watcher :=
  b.watchers.find? fun w => w.id == c

def setWatcher (b : StatusBoard) (w : Watcher) : StatusBoard :=
  { b with watchers := b.watchers.map fun x => if x.id == w.id then w else x }

def join (b : StatusBoard) (c target : Nat) : StatusBoard :=
  { b with watchers := b.watchers ++ [⟨c, target, b.version, .looking⟩] }

def leave (b : StatusBoard) (c : Nat) : StatusBoard :=
  { b with watchers := b.watchers.filter fun w => w.id != c }

def canStep (b : StatusBoard) (c : Nat) : Bool :=
  match b.watcher? c with
  | none => false
  | some w => w.stage != .waiting || w.seen != b.version

/-- The next atomic step of a watcher. The answer is a status that covers the target, or none if
nothing more is to be expected. -/
def step (b : StatusBoard) (c : Nat) : StatusBoard × Option (Option Status) :=
  match b.watcher? c with
  | none => (b, none)
  | some w =>
    match w.stage with
    | .looking =>
      match b.notice with
      | .unpublished => (b.leave c, some none)
      | .pending => (b.setWatcher { w with seen := b.version, stage := .waiting }, none)
      | .published _ => (b.setWatcher { w with seen := b.version, stage := .checking }, none)
    | .checking =>
      match b.current.filter fun s => w.target ≤ s.changeCount with
      | some s => (b.leave c, some (some s))
      | none => (b.setWatcher { w with stage := .waiting }, none)
    | .waiting =>
      if w.seen = b.version then (b, none)
      else (b.setWatcher { w with seen := b.version, stage := .looking }, none)

inductive Event where
  | display (status : Option Status)
  | announce (notice : Notice)
  | join (watcher target : Nat)
  | step (watcher : Nat)
  | leave (watcher : Nat)
  deriving DecidableEq, Repr

def next (b : StatusBoard) : Event → StatusBoard
  | .display s => b.display s
  | .announce n => b.announce n
  | .join c target => b.join c target
  | .step c => (b.step c).1
  | .leave c => b.leave c

end StatusBoard

end Reconciliation
