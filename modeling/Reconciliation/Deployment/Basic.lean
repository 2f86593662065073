import Reconciliation.Dictionary
import Reconciliation.Resolution.Basic

/-! # Deployments

A container hosts one deployment per base path. It is called to create, reload or destroy one, and
hands out a number for each deployment that it creates.
-/
namespace Reconciliation

inductive Operation where
  | create
  | reload
  | destroy
  deriving DecidableEq, Repr

def Operation.text : Operation → String
  | create => "create"
  | reload => "reload"
  | destroy => "destroy"

/-- A call on the container; the handle is the number of the deployment. -/
inductive Call where
  | create (path : String) (application : Accepted)
  | reload (path : String) (handle : Nat) (application : Accepted)
  | destroy (path : String) (handle : Nat)
  deriving DecidableEq, Repr

namespace Call

def operation : Call → Operation
  | create _ _ => .create
  | reload _ _ _ => .reload
  | destroy _ _ => .destroy

def path : Call → String
  | create p _ | reload p _ _ | destroy p _ => p

def application? : Call → Option Accepted
  | create _ a | reload _ _ a => some a
  | destroy _ _ => none

end Call

/-- What the container says: the number of a deployment, or why the call failed. -/
abbrev Response := Except String Nat

/-- A deployment that is believed to be in the container, and what it was last deployed with. -/
structure Live where
  handle : Nat
  fingerprint : Fingerprint
  deriving DecidableEq, Repr

abbrev LiveMap := Dictionary Live

/-- The calls of one run, by operation and outcome, each list in call order. -/
structure Report where
  created : List String
  reloaded : List String
  destroyed : List String
  failed : List (String × Operation × String)
  deriving DecidableEq, Repr

namespace Report

def empty : Report := ⟨[], [], [], []⟩

def isNoop (r : Report) : Bool :=
  r.created.isEmpty && r.reloaded.isEmpty && r.destroyed.isEmpty && r.failed.isEmpty

def add (r : Report) (c : Call) : Response → Report
  | .ok _ =>
    match c.operation with
    | .create => { r with created := r.created ++ [c.path] }
    | .reload => { r with reloaded := r.reloaded ++ [c.path] }
    | .destroy => { r with destroyed := r.destroyed ++ [c.path] }
  | .error why => { r with failed := r.failed ++ [(c.path, c.operation, why)] }

end Report

end Reconciliation
