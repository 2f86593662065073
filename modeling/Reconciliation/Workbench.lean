import Reconciliation.Deployment.Run
import Reconciliation.Provider.Lease
import Reconciliation.Resolution.Pass
import Reconciliation.Runtime
import Reconciliation.Status
import Reconciliation.Store.Basic

/-! # The workbench

A store, a runtime and a container, with passes made on demand and one at a time. The container may
be any state that answers calls.
-/
namespace Reconciliation

structure Workbench (σ : Type) where
  reconciler : Reconciler
  store : Store
  runtime : Runtime
  live : LiveMap
  container : σ
  /-- Leases by provider; a provider is its key and the revision that wrote it. -/
  ledger : Ledger (Key × Nat)
  passes : Nat

namespace Workbench

variable {σ : Type}

/-- An empty workbench. The built-in default application takes the first token. -/
def start (runtime : Properties) (container : σ) : Workbench σ :=
  { reconciler := ⟨.builtin (.generated 1)⟩
    store := .empty 2
    runtime := .ofProperties runtime
    live := .empty
    container
    ledger := .empty
    passes := 0 }

/-- Changes of the store and replacements of the runtime properties, taken together. -/
def changeCount (w : Workbench σ) : Nat :=
  w.store.changeCount + w.runtime.revision

def readStatuses (l : Ledger (Key × Nat)) (s : Snapshot) : Ledger (Key × Nat) :=
  s.entries.foldl (fun l e =>
    match e.record with
    | .content c => l.readStatus (e.record.key, e.revision) c
    | .application _ => l) l

def mutate (w : Workbench σ) (m : Mutation) : Workbench σ × Mutation.Answer :=
  let (store, a) := w.store.mutate m
  ({ w with store }, a)

def replaceRuntime (w : Workbench σ) (p : Properties) : Workbench σ :=
  { w with runtime := w.runtime.replace p }

/-- What a snapshot calls for. Nothing is deployed, but the providers are looked at. -/
def resolve (w : Workbench σ) (s : Snapshot) : Resolution × Workbench σ :=
  (w.reconciler.run s w.runtime.properties, { w with ledger := readStatuses w.ledger s })

def pass (respond : σ → Call → Response × σ) (w : Workbench σ) :
    Report × Status × Workbench σ :=
  let count := w.changeCount
  let (resolution, w) := w.resolve w.store.snapshot
  let (run, container) := (Run.towards w.live resolution.applications).drive respond w.container
  (run.report, .ofResolution resolution count (w.passes + 1),
    { w with live := run.finalLive, container, passes := w.passes + 1 })

def teardown (respond : σ → Call → Response × σ) (w : Workbench σ) : Report × Workbench σ :=
  let (run, container) := (Run.teardown w.live).drive respond w.container
  (run.report, { w with live := run.finalLive, container })

end Workbench

end Reconciliation
