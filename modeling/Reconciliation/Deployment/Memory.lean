import Reconciliation.Deployment.Basic

/-! # A container in memory

It records the calls that succeed, numbers the deployments that it creates, and fails calls for
which a failure was injected.
-/
namespace Reconciliation

structure CallRecord where
  operation : Operation
  path : String
  application : String
  content : List String
  deriving DecidableEq, Repr

def Call.record (c : Call) : CallRecord :=
  { operation := c.operation
    path := c.path
    application := (c.application?.map Accepted.name).getD ""
    content := (c.application?.map fun a => a.content.map fun x => x.record.profile.name).getD [] }

structure MemoryContainer where
  calls : List CallRecord
  failing : List (Operation × String)
  created : Nat
  deriving DecidableEq, Repr

namespace MemoryContainer

def empty : MemoryContainer := ⟨[], [], 0⟩

def failOn (m : MemoryContainer) (o : Operation) (path : String) : MemoryContainer :=
  { m with failing := m.failing ++ [(o, path)] }

def heal (m : MemoryContainer) : MemoryContainer :=
  { m with failing := [] }

def forgetCalls (m : MemoryContainer) : MemoryContainer :=
  { m with calls := [] }

def respond (m : MemoryContainer) (c : Call) : Response × MemoryContainer :=
  if m.failing.contains (c.operation, c.path) then
    (.error s!"injected {c.operation.text} failure at {c.path}", m)
  else
    let m := { m with calls := m.calls ++ [c.record] }
    match c with
    | .create _ _ => (.ok (m.created + 1), { m with created := m.created + 1 })
    | .reload _ handle _ | .destroy _ handle => (.ok handle, m)

end MemoryContainer

end Reconciliation
