/-! # Waiting for a worker to end

Only one caller can hold the handle through which the end is noticed; the others wait for a flag. A
holder that gives up puts the handle back and moves the flag to a new version.
-/
namespace Reconciliation

namespace JoinControl

inductive Stage where
  /-- About to look for the handle. -/
  | taking
  /-- Found no handle and is about to look at the flag. -/
  | checking
  /-- Waits for a new version of the flag. -/
  | waiting
  /-- Holds the handle. -/
  | holding
  /-- Has given up and is about to put the handle back. -/
  | returning
  /-- Has put the handle back and is about to say so. -/
  | announcing
  deriving DecidableEq, Repr

structure Caller where
  id : Nat
  /-- When the caller gives up, if ever. -/
  deadline : Option Nat
  /-- The version of the flag that was seen last. -/
  seen : Nat
  stage : Stage
  deriving DecidableEq, Repr

def Caller.isLate (c : Caller) (now : Nat) : Bool :=
  c.deadline.any fun d => d ≤ now

end JoinControl

structure JoinControl where
  /-- Whether the handle is in its slot. -/
  inSlot : Bool
  done : Bool
  version : Nat
  callers : List JoinControl.Caller
  deriving DecidableEq, Repr

namespace JoinControl

def start : JoinControl := ⟨true, false, 0, []⟩

def caller? (j : JoinControl) (c : Nat) : Option Caller :=
  j.callers.find? fun x => x.id == c

def setCaller (j : JoinControl) (c : Caller) : JoinControl :=
  { j with callers := j.callers.map fun x => if x.id == c.id then c else x }

def join (j : JoinControl) (c : Nat) (deadline : Option Nat) : JoinControl :=
  { j with callers := j.callers ++ [⟨c, deadline, j.version, .taking⟩] }

def leave (j : JoinControl) (c : Nat) : JoinControl :=
  { j with callers := j.callers.filter fun x => x.id != c }

/-- Whether a caller has a step to make; `ended` tells whether the worker has ended. -/
def canStep (j : JoinControl) (ended : Bool) (now c : Nat) : Bool :=
  match j.caller? c with
  | none => false
  | some x =>
    match x.stage with
    | .waiting => x.seen != j.version || x.isLate now
    | .holding => ended || x.isLate now
    | _ => true

/-- The next atomic step of a caller. The answer is whether the worker has ended. -/
def step (j : JoinControl) (ended : Bool) (now c : Nat) : JoinControl × Option Bool :=
  match j.caller? c with
  | none => (j, none)
  | some x =>
    match x.stage with
    | .taking =>
      if j.inSlot then ({ j with inSlot := false }.setCaller { x with stage := .holding }, none)
      else (j.setCaller { x with stage := .checking }, none)
    | .checking =>
      if j.done then (j.leave c, some true)
      else (j.setCaller { x with seen := j.version, stage := .waiting }, none)
    | .waiting =>
      if x.seen ≠ j.version then (j.setCaller { x with seen := j.version, stage := .taking }, none)
      else if x.isLate now then (j.leave c, some false)
      else (j, none)
    | .holding =>
      if ended then ({ j with done := true, version := j.version + 1 }.leave c, some true)
      else if x.isLate now then (j.setCaller { x with stage := .returning }, none)
      else (j, none)
    | .returning => ({ j with inSlot := true }.setCaller { x with stage := .announcing }, none)
    | .announcing => ({ j with version := j.version + 1 }.leave c, some false)

/-- A caller that is late gives up, even though it could go on: where both are possible, it is open
which one comes about. -/
def giveUp (j : JoinControl) (now c : Nat) : JoinControl × Option Bool :=
  match j.caller? c with
  | none => (j, none)
  | some x =>
    if x.isLate now then
      match x.stage with
      | .waiting => (j.leave c, some false)
      | .holding => (j.setCaller { x with stage := .returning }, none)
      | _ => (j, none)
    else (j, none)

inductive Event where
  | join (caller : Nat) (deadline : Option Nat)
  | step (ended : Bool) (now caller : Nat)
  | giveUp (now caller : Nat)
  deriving DecidableEq, Repr

def next (j : JoinControl) : Event → JoinControl
  | .join c deadline => j.join c deadline
  | .step ended now c => (j.step ended now c).1
  | .giveUp now c => (j.giveUp now c).1

end JoinControl

end Reconciliation
