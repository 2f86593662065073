import Reconciliation.Provider.Order
import Reconciliation.Store.Snapshot

/-! # Contests

Entries with the same stake compete, and the first one of each stake wins. An entry without a stake
does not take part, and a rule may spare an entry that stands with the winner.
-/
namespace Reconciliation

/-- A rule over entries of type `α`: what each of them stakes, and which of them the winner spares. -/
structure Contest (α : Type) where
  stake : α → Option String
  spares : (winner loser : α) → Bool

namespace Contest

variable {α : Type}

/-- Goes through the entries with the winners so far; each entry comes out with the winner that it
lost to, if it lost. -/
def judge (c : Contest α) : List (String × α) → List α → List (α × Option α)
  | _, [] => []
  | winners, x :: xs =>
    match c.stake x with
    | none => (x, none) :: c.judge winners xs
    | some k =>
      match winners.lookup k with
      | none => (x, none) :: c.judge ((k, x) :: winners) xs
      | some w => (x, if c.spares w x then none else some w) :: c.judge winners xs

def verdicts (c : Contest α) (xs : List α) : List (α × Option α) :=
  c.judge [] xs

def survivors (c : Contest α) (xs : List α) : List α :=
  (c.verdicts xs).filterMap fun v => if v.2.isNone then some v.1 else none

def losses (c : Contest α) (xs : List α) : List (α × α) :=
  (c.verdicts xs).filterMap fun v => v.2.map fun w => (v.1, w)

def through {β : Type} (c : Contest α) (view : β → α) : Contest β where
  stake x := c.stake (view x)
  spares w x := c.spares (view w) (view x)

def lossIndices (c : Contest α) (xs : List α) : List (Nat × Nat) :=
  ((c.through Prod.fst).losses xs.zipIdx).map fun p => (p.1.2, p.2.2)

end Contest

inductive Rule where
  | path
  | name
  | default
  deriving DecidableEq, Repr

namespace Rule

def text : Rule → String
  | path => "path"
  | name => "name"
  | default => "default"

def reason : Rule → Reason
  | path | default => .shadowed
  | name => .duplicateName

end Rule

def pathContest : Contest Application where
  stake a := some a.base
  spares _ _ := false

def defaultContest : Contest Application where
  stake a := if a.isDefault then some Keys.defaultName else none
  spares _ _ := false

structure NameClaim where
  kind : Kind
  id : ProviderId
  name : String
  /-- Default applications are left to their own contest. -/
  exempt : Bool
  deriving DecidableEq, Repr

/-- Providers of all kinds compete for their name; one registration never competes with itself. -/
def nameContest : Contest NameClaim where
  stake c := if c.exempt then none else some c.name
  spares w x := w.id == x.id

namespace Record

def isDefault : Record → Bool
  | application a => a.isDefault
  | content _ => false

def nameClaim (r : Record) : NameClaim :=
  ⟨r.kind, r.id, r.name, r.isDefault⟩

/-- A contest among applications, in which content does not take part. -/
def amongApplications (c : Contest Application) : Contest Record where
  stake r := r.application?.bind c.stake
  spares w x :=
    match w.application?, x.application? with
    | some w, some x => c.spares w x
    | _, _ => false

def contest : Rule → Contest Record
  | .path => amongApplications pathContest
  | .name => nameContest.through nameClaim
  | .default => amongApplications defaultContest

def causeOf (rule : Rule) (winner : Record) : Cause :=
  match rule with
  | .path | .default => .lost winner.name winner.id
  | .name => .nameTaken winner.name winner.kind winner.id

end Record

end Reconciliation
