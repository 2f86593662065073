import Reconciliation.Deployment.Memory
import Reconciliation.Engine.Step
import Reconciliation.Timeline.Basic

/-! # An engine in use

An engine with a container in memory whose calls take time. A call may also be told to explode, and
the actor with it. Callers wait for a settled status or shut the engine down.
-/
namespace Reconciliation

namespace EngineWorld

inductive Result where
  /-- A status that covers what was asked for, or none if there will be no such status. -/
  | settled (status : Option Status)
  | timeout
  | farewell (f : Engine.Farewell)
  deriving DecidableEq, Repr

structure Watch where
  watcher : Nat
  deadline : Option Nat
  deriving DecidableEq, Repr

end EngineWorld

structure EngineWorld where
  clock : Clock
  engine : Engine
  container : MemoryContainer
  /-- How long the calls of an operation take; the latest entry counts. -/
  delays : List (Operation × Nat)
  explosive : List (Operation × String)
  /-- When the call at hand is through. -/
  callDue : Option Nat
  /-- The successful calls, with the number of the deployment. -/
  served : List (Operation × String × Nat)
  /-- Numbered callers so far. -/
  started : Nat
  watches : List EngineWorld.Watch
  /-- Who is told how the shutdown went. -/
  closer : Option Nat
  done : List (Completion EngineWorld.Result)

namespace EngineWorld

def start (engine : Engine) : EngineWorld :=
  { clock := .start
    engine
    container := .empty
    delays := []
    explosive := []
    callDue := none
    served := []
    started := 0
    watches := []
    closer := none
    done := [] }

def now (w : EngineWorld) : Nat := w.clock.now

def delay (w : EngineWorld) (o : Operation) : Nat :=
  (w.delays.lookup o).getD 0

def timeCall (w : EngineWorld) : EngineWorld :=
  match w.engine.call?, w.callDue with
  | some c, none => { w with callDue := some (w.now + Clock.span (w.delay c.operation)) }
  | some _, some _ => w
  | none, _ => { w with callDue := none }

def answerCall (w : EngineWorld) (c : Call) : EngineWorld :=
  if w.explosive.contains (c.operation, c.path) then
    { w with engine := w.engine.explode, callDue := none }
  else
    let (response, container) := w.container.respond c
    { w with
      engine := w.engine.respond response
      container
      callDue := none
      served := match response with
        | .ok number => w.served ++ [(c.operation, c.path, number)]
        | .error _ => w.served }

def dueCall? (w : EngineWorld) : Option Call :=
  if w.callDue.any (· ≤ w.now) then w.engine.call? else none

def stepActor (w : EngineWorld) : EngineWorld :=
  (if w.engine.canAct w.now then { w with engine := w.engine.stepActor w.now }
    else
      match w.dueCall? with
      | some c => w.answerCall c
      | none => w).timeCall

def finish (w : EngineWorld) (c : Nat) (r : Result) : EngineWorld :=
  { w with done := w.done ++ [⟨c, r, w.now⟩] }

def stepClosing (w : EngineWorld) : EngineWorld :=
  match w.engine.stepClosing w.now, w.closer with
  | (engine, some f), some c => ({ w with engine, closer := none } : EngineWorld).finish c (.farewell f)
  | (engine, _), _ => { w with engine }

def endWatch (w : EngineWorld) (c : Nat) (r : Result) : EngineWorld :=
  ({ w with watches := w.watches.filter fun x => x.watcher != c } : EngineWorld).finish c r

def isLate (now : Nat) (x : Watch) : Bool :=
  x.deadline.any (· ≤ now)

/-- A look at the board; without an answer, a late watcher gives up. -/
def stepWatch (w : EngineWorld) (x : Watch) : EngineWorld :=
  if w.engine.board.canStep x.watcher then
    match w.engine.watch x.watcher with
    | (engine, some s) => ({ w with engine } : EngineWorld).endWatch x.watcher (.settled s)
    | (engine, none) => { w with engine }
  else if isLate w.now x then
    ({ w with engine := w.engine.unwatch x.watcher } : EngineWorld).endWatch x.watcher .timeout
  else w

def generationTask : Nat := 1
def supervisorTask : Nat := 2
def pumpTask : Nat := 3

def backgroundTask : Nat := 4

def closingTask? (w : EngineWorld) : Option Nat :=
  match w.engine.closing with
  | .handedOver | .patient | .forcing => some backgroundTask
  | .open | .sending _ | .awaiting _ | .joining _ | .over => w.closer

def canWatch (w : EngineWorld) (x : Watch) : Bool :=
  w.engine.board.canStep x.watcher || isLate w.now x

def canStep (w : EngineWorld) (task : Nat) : Bool :=
  if task = generationTask then
    w.engine.actor.stage.isOfGeneration && (w.engine.canAct w.now || w.dueCall?.isSome)
  else if task = supervisorTask then
    !w.engine.actor.stage.isOfGeneration && w.engine.canAct w.now
  else if task = pumpTask then w.engine.canPump w.now
  else if w.closingTask? = some task then w.engine.canClose w.now
  else w.watches.any fun x => x.watcher == task && w.canWatch x

def step (w : EngineWorld) (task : Nat) : EngineWorld :=
  if task = generationTask ∨ task = supervisorTask then w.stepActor
  else if task = pumpTask then { w with engine := w.engine.stepPump w.now }
  else if w.closingTask? = some task then w.stepClosing
  else
    match w.watches.find? fun x => x.watcher == task with
    | some x => w.stepWatch x
    | none => w

/-- When the shutdown gives up: waiting for an answer, or later for the end of the actor. -/
def closingAlarms (w : EngineWorld) (task : Nat) : List Alarm :=
  match w.engine.closing with
  | .sending deadline | .awaiting deadline => [⟨task, deadline, 0⟩]
  | _ => w.engine.join.callers.filterMap fun c => c.deadline.map fun due => ⟨task, due, 1⟩

def alarms (w : EngineWorld) : List Alarm :=
  (w.callDue.map fun due => ⟨generationTask, due, 0⟩).toList ++
    (w.engine.actor.alarm?.map fun due => ⟨supervisorTask, due, 0⟩).toList ++
    (w.engine.debouncer.alarms.map fun a => ⟨pumpTask, a.2, 0⟩) ++
    (w.closingTask?.map w.closingAlarms).getD [] ++
    w.watches.filterMap fun x => x.deadline.map fun due => ⟨x.watcher, due, 0⟩

def timeline : Timeline EngineWorld where
  clock := (·.clock)
  setClock w clock := { w with clock }
  tasks w := [pumpTask, generationTask] ++ w.watches.map (·.watcher) ++ w.closingTask?.toList ++
    [supervisorTask]
  canStep := canStep
  step := step
  alarms := alarms

def nextCaller (w : EngineWorld) : Nat := w.started + 5

def watch (w : EngineWorld) (c : Nat) (deadline : Option Nat) : EngineWorld :=
  { w with engine := w.engine.settled c, watches := w.watches ++ [⟨c, deadline⟩] }

def settledLater (w : EngineWorld) : EngineWorld :=
  { w.watch w.nextCaller none with started := w.started + 1 }

/-- A caller shuts the engine down; if that has been done before, it is told so. -/
def close (w : EngineWorld) (c : Nat) : EngineWorld :=
  match w.engine.shutdown w.now with
  | (engine, some f) => ({ w with engine } : EngineWorld).finish c (.farewell f)
  | (engine, none) => { w with engine, closer := some c }

def shutdownLater (w : EngineWorld) : EngineWorld :=
  { w.close w.nextCaller with started := w.started + 1 }

def cancel (w : EngineWorld) (c : Nat) : EngineWorld :=
  if w.closer = some c then { w with engine := w.engine.abandonShutdown, closer := none }
  else if w.watches.any fun x => x.watcher == c then
    { w with
      engine := w.engine.unwatch c
      watches := w.watches.filter fun x => x.watcher != c }
  else w

def await (w : EngineWorld) : EngineWorld × Option Result :=
  let isOver (w : EngineWorld) := w.done.any fun d => d.waiter == Timeline.foreground
  let w := timeline.await isOver w
  ({ w with done := w.done.filter fun d => d.waiter != Timeline.foreground },
    (w.done.find? fun d => d.waiter == Timeline.foreground).map (·.result))

/-- The foreground waits for a settled status, but not longer than a time. -/
def settledWithin (w : EngineWorld) (time : Nat) : EngineWorld × Option Result :=
  (w.watch Timeline.foreground (some (w.now + Clock.span time))).await

def shutdown (w : EngineWorld) : EngineWorld × Option Result :=
  (w.close Timeline.foreground).await

end EngineWorld

end Reconciliation
