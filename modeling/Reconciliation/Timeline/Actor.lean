import Reconciliation.Worker.Feed
import Reconciliation.Timeline.Basic
import Reconciliation.Worker.JoinControl
import Reconciliation.Worker.Supervisor

/-! # A supervised actor in use

The actor follows scripts: one for each time it starts, and each command is one. Callers send
commands and shut the actor down.
-/
namespace Reconciliation

structure Script where
  nap : Option Nat
  emit : Option Int
  panics : Bool
  fail : Option String
  stops : Bool
  deriving DecidableEq, Repr

namespace Script

def empty : Script := ⟨none, none, false, none, false⟩

def handled (s : Script) : Handled :=
  if s.panics then .panicked
  else
    match s.fail with
    | some m => .failed m
    | none => if s.stops then .stop else .goOn

def started (s : Script) : Started :=
  if s.panics then .panicked
  else
    match s.fail with
    | some m => .failed m
    | none => .ready

end Script

namespace ActorWorld

inductive LogEntry where
  | start
  | enter
  | leave
  | stop
  | stopCancelled
  deriving DecidableEq, Repr

def LogEntry.text : LogEntry → String
  | start => "start"
  | enter => "enter"
  | leave => "leave"
  | stop => "stop"
  | stopCancelled => "stop-cancelled"

inductive Mode where
  /-- Cancel it and wait for its end. -/
  | immediate
  /-- Let it handle what it has been sent, and wait for so long. -/
  | graceful (timeout : Nat)
  /-- Do that, and cancel the actor if the time was not enough. -/
  | gracefulOrForced (timeout : Nat)
  deriving DecidableEq, Repr

inductive Result where
  | sent
  | refused
  | shutdown (completed : Bool) (lastExit : Option Exit)
  deriving DecidableEq, Repr

inductive Errand where
  | sending
  /-- About to shut the actor down. -/
  | closing (m : Mode)
  /-- Waits for the end; told to force it when that is not reached in time. -/
  | joining (force : Bool)
  deriving DecidableEq, Repr

end ActorWorld

structure ActorWorld where
  clock : Clock
  actor : Supervisor Script
  /-- The scripts for the next starts. -/
  starts : List Script
  /-- The script that is followed, and until when it naps. -/
  work : Option (Script × Nat)
  join : JoinControl
  log : List (Nat × Nat × ActorWorld.LogEntry)
  events : Feed Int
  /-- Numbered callers so far. -/
  started : Nat
  errands : List (Nat × ActorWorld.Errand)
  done : List (Completion ActorWorld.Result)
  deriving Repr

namespace ActorWorld

def start (policy : RestartPolicy) (capacity eventRoom : Nat) (starts : List Script) : ActorWorld :=
  { clock := .start
    actor := .start (policy.mapBackoff Clock.span) capacity
    starts
    work := none
    join := .start
    log := []
    events := .withRoom eventRoom
    started := 0
    errands := []
    done := [] }

def now (w : ActorWorld) : Nat := w.clock.now

def write (w : ActorWorld) (e : LogEntry) : ActorWorld :=
  { w with log := w.log ++ [(w.now, w.actor.generation, e)] }

def begin (w : ActorWorld) (s : Script) : ActorWorld :=
  { w with work := some (s, w.now + Clock.span (s.nap.getD 0)) }

def emit (w : ActorWorld) (s : Script) : ActorWorld :=
  match s.emit with
  | some e => { w with events := w.events.emit e }
  | none => w

def conclude (w : ActorWorld) (s : Script) : ActorWorld :=
  let w := { w.emit s with work := none }
  match w.actor.stage with
  | .starting => { w with actor := w.actor.started s.started }
  | _ =>
    let w := if s.panics then w else w.write .leave
    { w with actor := w.actor.handled s.handled }

def arrive (w : ActorWorld) : ActorWorld :=
  match w.actor.stage with
  | .starting =>
    let w := w.write .start
    match w.starts with
    | [] => w.begin .empty
    | s :: rest => { w with starts := rest }.begin s
  | .handling s => (w.write .enter).begin s
  | .stopping _ => { w.write (if w.actor.cancelled then .stopCancelled else .stop) with work := none }
  | .ended _ => { w with work := none }
  | _ => w

def changesStage (a b : Supervisor.Stage Script) : Bool :=
  match a, b with
  | .starting, .starting | .handling _, .handling _ | .stopping _, .stopping _
  | .ended _, .ended _ => false
  | _, _ => true

def stepActor (w : ActorWorld) : ActorWorld :=
  let before := w.actor.stage
  let w :=
    if w.actor.canStep w.now then { w with actor := (w.actor.step w.now).1 }
    else
      match w.work with
      | some (s, due) => if due ≤ w.now then w.conclude s else w
      | none => w
  if changesStage before w.actor.stage then w.arrive else w

def canAct (w : ActorWorld) : Bool :=
  w.actor.canStep w.now || w.work.any fun x => x.2 ≤ w.now

def finish (w : ActorWorld) (c : Nat) (r : Result) : ActorWorld :=
  { w with
    errands := w.errands.filter fun x => x.1 != c
    done := w.done ++ [⟨c, r, w.now⟩] }

def setErrand (w : ActorWorld) (c : Nat) (e : Errand) : ActorWorld :=
  { w with errands := w.errands.map fun x => if x.1 == c then (c, e) else x }

def awaitEnd (w : ActorWorld) (c : Nat) (timeout : Option Nat) (force : Bool) : ActorWorld :=
  { w with join := w.join.join c (timeout.map fun time => w.now + Clock.span time) }.setErrand c
    (.joining force)

def beginShutdown (w : ActorWorld) (c : Nat) : Mode → ActorWorld
  | .immediate => { w with actor := w.actor.cancel }.awaitEnd c none false
  | .graceful timeout => { w with actor := w.actor.close }.awaitEnd c (some timeout) false
  | .gracefulOrForced timeout => { w with actor := w.actor.close }.awaitEnd c (some timeout) true

def stepErrand (w : ActorWorld) (c : Nat) : ActorWorld :=
  match w.errands.lookup c with
  | none => w
  | some .sending =>
    match w.actor.mailbox.step c with
    | (mailbox, none) => { w with actor := { w.actor with mailbox } }
    | (mailbox, some r) =>
      { w with actor := { w.actor with mailbox } }.finish c
        (match r with
          | .sent => .sent
          | _ => .refused)
  | some (.closing m) => w.beginShutdown c m
  | some (.joining force) =>
    match w.join.step w.actor.isFinished w.now c with
    | (join, none) => { w with join }
    | (join, some completed) =>
      if force && !completed then ({ w with join } : ActorWorld).beginShutdown c .immediate
      else { w with join }.finish c (.shutdown completed w.actor.lastExit)

def canStepErrand (w : ActorWorld) (c : Nat) : Bool :=
  match w.errands.lookup c with
  | none => false
  | some .sending => w.actor.mailbox.canStep c
  | some (.closing _) => true
  | some (.joining _) => w.join.canStep w.actor.isFinished w.now c

def supervisorTask : Nat := 1

/-- The number of the generation at work as a task. Callers have higher ones. -/
def generationTask : Nat := 2

def canStep (w : ActorWorld) (task : Nat) : Bool :=
  if task = supervisorTask then !w.actor.stage.isOfGeneration && w.canAct
  else if task = generationTask then w.actor.stage.isOfGeneration && w.canAct
  else w.canStepErrand task

def step (w : ActorWorld) (task : Nat) : ActorWorld :=
  if task = supervisorTask ∨ task = generationTask then w.stepActor else w.stepErrand task

def alarms (w : ActorWorld) : List Alarm :=
  (w.work.map fun x => ⟨generationTask, x.2, 0⟩).toList ++
    (w.actor.alarm?.map fun due => ⟨supervisorTask, due, 0⟩).toList ++
    w.join.callers.filterMap fun c => c.deadline.map fun due => ⟨c.id, due, c.seen⟩

def timeline : Timeline ActorWorld where
  clock := (·.clock)
  setClock w clock := { w with clock }
  tasks w := generationTask :: w.errands.map (·.1) ++ [supervisorTask]
  canStep := canStep
  step := step
  alarms := alarms

def nextCaller (w : ActorWorld) : Nat := w.started + 3

def send (w : ActorWorld) (s : Script) : ActorWorld :=
  let c := w.nextCaller
  { w with
    actor := { w.actor with mailbox := w.actor.mailbox.join c (.send s) }
    errands := w.errands ++ [(c, .sending)]
    started := w.started + 1 }

def close (w : ActorWorld) (c : Nat) (m : Mode) : ActorWorld :=
  { w with errands := w.errands ++ [(c, .closing m)] }

def shutdownLater (w : ActorWorld) (m : Mode) : ActorWorld :=
  { w.close w.nextCaller m with started := w.started + 1 }

def shutdown (w : ActorWorld) (m : Mode) : ActorWorld × Option Result :=
  let finished (w : ActorWorld) := (w.errands.lookup Timeline.foreground).isNone
  let w := timeline.await finished (w.close Timeline.foreground m)
  ({ w with done := w.done.filter fun d => d.waiter != Timeline.foreground },
    (w.done.find? fun d => d.waiter == Timeline.foreground).map (·.result))

end ActorWorld

end Reconciliation
