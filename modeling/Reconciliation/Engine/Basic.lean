import Reconciliation.Config
import Reconciliation.Deployment.Run
import Reconciliation.Worker.Feed
import Reconciliation.Resolution.Pass
import Reconciliation.Runtime
import Reconciliation.Store.Basic
import Reconciliation.Text.Duration
import Reconciliation.Timeline.Clock
import Reconciliation.Worker.Debouncer
import Reconciliation.Worker.JoinControl
import Reconciliation.Worker.StatusBoard
import Reconciliation.Worker.Supervisor

/-! # The engine

Changes request a pass from the debouncer; a pump carries each ticket to a supervised actor, which
alone runs passes and calls the container.
-/
namespace Reconciliation

structure PassEvent where
  pass : Nat
  changeCount : Nat
  report : Report
  deriving DecidableEq, Repr

namespace Engine

inductive Command where
  /-- Run a pass under the ticket with this serial number. -/
  | pass (serial : Nat)
  /-- Take everything down and stop. -/
  | shutdown
  deriving DecidableEq, Repr

inductive Pump where
  /-- Waits for the next ticket. -/
  | asking
  /-- Waits for room in the actor's mailbox. -/
  | sending (serial : Nat)
  | ended
  deriving DecidableEq, Repr

/-- How far the actor has come with its command. A pass reads the revision of the runtime
properties, the properties and the snapshot one after the other. -/
inductive Work where
  | opening (serial : Nat)
  | knowingRevision (serial revision : Nat)
  | knowingRuntime (serial revision : Nat) (runtime : Properties)
  | deploying (serial changeCount : Nat) (resolution : Resolution) (run : Run)
  | unpublishing
  | tearingDown (run : Run)
  deriving DecidableEq, Repr

inductive Reply where
  | awaited
  | given (report : Report)
  | lost
  deriving DecidableEq, Repr

/-- How far a shutdown has come. After the timeout its caller is told so, and it goes on without
the caller, who has handed it over: first with patience, then by force. -/
inductive Closing where
  | open
  | sending (deadline : Nat)
  | awaiting (deadline : Nat)
  | joining (report : Report)
  | handedOver
  | patient
  | forcing
  | over
  deriving DecidableEq, Repr

inductive Farewell where
  | done (report : Report)
  | shutDown
  | timedOut (timeout : Nat)
  deriving DecidableEq, Repr

def Farewell.fault? : Farewell → Option String
  | done _ => none
  | shutDown => some "whiteboard is shut down"
  | timedOut timeout => some s!"shutdown did not finish within {Text.duration timeout}"

inductive StartError where
  | invalidConfig (e : ConfigError)
  /-- There is nothing that could run its tasks. -/
  | noExecutor
  deriving DecidableEq, Repr

def StartError.message : StartError → String
  | invalidConfig e => s!"invalid configuration: {e.message}"
  | noExecutor => "no tokio runtime is running on this thread"

/-- The number of the pump as a caller of the debouncer and the mailbox. -/
def pumpId : Nat := 1

/-- The number of the shutdown as a caller of the mailbox and of the join control. -/
def closerId : Nat := 2

end Engine

structure Engine where
  config : Config
  reconciler : Reconciler
  store : Store
  runtime : Runtime
  /-- Whether changes of the store and the runtime properties still request passes. -/
  listening : Bool
  board : StatusBoard
  live : LiveMap
  debouncer : Debouncer
  pump : Engine.Pump
  actor : Supervisor Engine.Command
  work : Option Engine.Work
  join : JoinControl
  closed : Bool
  closing : Engine.Closing
  reply : Engine.Reply
  events : Feed PassEvent

namespace Engine

/-- An engine over a store, just started. A first pass is requested at once, so that the built-in
default application is deployed before there is any registration. -/
def start (config : Config) (store : Store) : Engine :=
  { config
    reconciler := ⟨.builtin (.generated store.nextToken)⟩
    store := { store with nextToken := store.nextToken + 1 }
    runtime := .ofProperties config.initialRuntime
    listening := true
    board := .empty
    live := .empty
    debouncer := ((Debouncer.start (Clock.span config.debounce)).join pumpId).request.1
    pump := .asking
    actor := .start (.onFailure 16 10) 4
    work := none
    join := .start
    closed := false
    closing := .open
    reply := .awaited
    events := .withRoom 64 }

/-- Starts an engine if its configuration is valid and there is an executor. -/
def launch (config : Config) (store : Store) (executor : Bool) : Except StartError Engine :=
  match config.validate with
  | .error e => .error (.invalidConfig e)
  | .ok config => if executor then .ok (start config store) else .error .noExecutor

/-- Changes of the store and replacements of the runtime properties, taken together. -/
def changeCount (e : Engine) : Nat :=
  e.store.changeCount + e.runtime.revision

def call? (e : Engine) : Option Call :=
  match e.work with
  | some (.deploying _ _ _ run) | some (.tearingDown run) => run.call?
  | _ => none

end Engine

end Reconciliation
