import Reconciliation.Timeline.Clock

/-! # Virtual time

A world runs one task at a time until it has to wait, and the clock jumps to the next alarm when
nobody can go on. The foreground is the task that everything waits for.
-/
namespace Reconciliation

structure Timeline (ω : Type) where
  clock : ω → Clock
  setClock : ω → Clock → ω
  /-- All tasks. When one event lets several of them go on, they are called in this order. -/
  tasks : ω → List Nat
  canStep : ω → Nat → Bool
  /-- The next atomic step of a task. -/
  step : ω → Nat → ω
  /-- The alarms that the tasks want at present. -/
  alarms : ω → List Alarm

structure Completion (ρ : Type) where
  waiter : Nat
  result : ρ
  moment : Nat
  deriving DecidableEq, Repr

namespace Timeline

variable {ω : Type}

def patience : Nat := 1000000

def foreground : Nat := 0

/-- Tasks that have become able to go on get in line, and alarms are adjusted. -/
def notice (t : Timeline ω) (w : ω) : ω :=
  let able := (t.tasks w).filter fun x => x != foreground && t.canStep w x
  t.setClock w ((able.foldl Clock.call (t.clock w)).adjust (t.alarms w))

def runFor (t : Timeline ω) (task : Nat) : Nat → ω → ω
  | 0, w => w
  | n + 1, w => if t.canStep w task then t.runFor task n (t.step w task) else w

def poll (t : Timeline ω) (w : ω) (task : Nat) : ω :=
  t.notice (t.runFor task patience w)

def turn? (t : Timeline ω) (w : ω) : Option ω :=
  match (t.clock w).line with
  | x :: rest => some (t.poll (t.setClock w { t.clock w with line := rest }) x)
  | [] => if t.canStep w foreground then some (t.poll w foreground) else none

def settleFor (t : Timeline ω) : Nat → ω → ω
  | 0, w => w
  | n + 1, w =>
    match t.turn? w with
    | some w => t.settleFor n w
    | none => w

def settle (t : Timeline ω) (w : ω) : ω :=
  t.settleFor patience (t.notice w)

/-- Moves the clock on to a moment and calls the tasks whose alarms ring. -/
def jump (t : Timeline ω) (w : ω) (moment : Nat) : ω :=
  let c := t.clock w
  let rung := c.rung moment
  let w := t.setClock w ((rung.filter (· != foreground)).foldl Clock.call { c with now := moment })
  if rung.contains foreground then t.poll w foreground else t.notice w

/-- Lets time pass up to a moment; whatever falls due on the way is run then. -/
def passUntil (t : Timeline ω) (moment : Nat) : Nat → ω → ω
  | 0, w => w
  | n + 1, w =>
    let w := t.settle w
    match (t.clock w).nextAlarm? with
    | some a =>
      if a ≤ moment then t.passUntil moment n (t.jump w a)
      else t.settle (t.jump w moment)
    | none => t.settle (t.jump w moment)

def advance (t : Timeline ω) (w : ω) (time : Nat) : ω :=
  t.passUntil ((t.clock w).now + Clock.span time) patience w

/-- Lets time pass until something has come about, or nothing can happen any more. -/
def waitFor (t : Timeline ω) (isOver : ω → Bool) : Nat → ω → ω
  | 0, w => w
  | n + 1, w =>
    let w := t.settle w
    if isOver w then w
    else
      match (t.clock w).nextAlarm? with
      | some a => t.waitFor isOver n (t.jump w a)
      | none => w

/-- The foreground waits for something. It goes ahead of those whom it calls by asking for it. -/
def await (t : Timeline ω) (isOver : ω → Bool) (w : ω) : ω :=
  t.waitFor isOver patience (t.poll w foreground)

end Timeline

end Reconciliation
