import Reconciliation.Timeline.Basic
import Reconciliation.Worker.Debouncer

/-! # A debouncer in use

Callers wait for the next ticket: once, once with a timeout, or again and again, giving each ticket
back after some time of work.
-/
namespace Reconciliation

namespace DebouncerWorld

inductive Errand where
  | once
  /-- Gives up at the deadline. -/
  | within (deadline : Nat)
  /-- Works on each ticket for a time. So far it has had these tickets at these moments, and it holds
  one until a moment. -/
  | serving (work : Nat) (had : List (Nat × Nat)) (holding : Option (Nat × Nat))
  deriving DecidableEq, Repr

inductive Result where
  | ticket (serial : Nat)
  | closed
  | timeout
  | served (had : List (Nat × Nat))
  deriving DecidableEq, Repr

end DebouncerWorld

structure DebouncerWorld where
  clock : Clock
  /-- The interval that was asked for. -/
  interval : Nat
  debouncer : Debouncer
  /-- Tickets that nobody works on. -/
  kept : List Nat
  /-- Callers so far, the foreground not counted. Their numbers begin at 1. -/
  started : Nat
  errands : List (Nat × DebouncerWorld.Errand)
  done : List (Completion DebouncerWorld.Result)
  deriving Repr

namespace DebouncerWorld

def start (interval : Nat) : DebouncerWorld :=
  ⟨.start, interval, .start (Clock.span interval), [], 0, [], []⟩

def now (w : DebouncerWorld) : Nat := w.clock.now

def shown (w : DebouncerWorld) : Debouncer :=
  { w.debouncer with interval := w.interval }

def setErrand (w : DebouncerWorld) (c : Nat) (e : Errand) : DebouncerWorld :=
  { w with errands := w.errands.map fun x => if x.1 == c then (c, e) else x }

def finish (w : DebouncerWorld) (c : Nat) (r : Result) : DebouncerWorld :=
  { w with
    errands := w.errands.filter fun x => x.1 != c
    done := w.done ++ [⟨c, r, w.now⟩] }

def canStep (w : DebouncerWorld) (c : Nat) : Bool :=
  match w.errands.lookup c with
  | none => false
  | some .once | some (.serving _ _ none) => w.debouncer.canStep w.now c
  | some (.within deadline) => w.debouncer.canStep w.now c || deadline ≤ w.now
  | some (.serving _ _ (some (_, due))) => due ≤ w.now

def receive (w : DebouncerWorld) (c : Nat) : Errand → Debouncer.Next → DebouncerWorld
  | .serving work had _, .ticket serial =>
    w.setErrand c
      (.serving work (had ++ [(serial, w.now)]) (some (serial, w.now + Clock.span work)))
  | .serving _ had _, .closed => w.finish c (.served had)
  | _, .ticket serial => { w.finish c (.ticket serial) with kept := w.kept ++ [serial] }
  | _, .closed => w.finish c .closed

/-- A caller gets on with its errand. The debouncer comes before the deadline. -/
def step (w : DebouncerWorld) (c : Nat) : DebouncerWorld :=
  match w.errands.lookup c with
  | none => w
  | some (.serving work had (some (serial, _))) =>
    { w with debouncer := (w.debouncer.giveBack serial).join c }.setErrand c
      (.serving work had none)
  | some e =>
    if w.debouncer.canStep w.now c then
      match w.debouncer.step w.now c with
      | (debouncer, some r) => ({ w with debouncer } : DebouncerWorld).receive c e r
      | (debouncer, none) => { w with debouncer }
    else { w with debouncer := w.debouncer.leave c }.finish c .timeout

def alarmOf : Nat × Errand → Option Alarm
  | (c, .within deadline) => some ⟨c, deadline, 1⟩
  | (c, .serving _ _ (some (_, due))) => some ⟨c, due, 1⟩
  | _ => none

def timeline : Timeline DebouncerWorld where
  clock := (·.clock)
  setClock w clock := { w with clock }
  tasks w := w.errands.map (·.1)
  canStep := canStep
  step := step
  alarms w := (w.debouncer.alarms.map fun a => ⟨a.1, a.2, 0⟩) ++ w.errands.filterMap alarmOf

def join (w : DebouncerWorld) (c : Nat) (e : Errand) : DebouncerWorld :=
  { w with debouncer := w.debouncer.join c, errands := w.errands ++ [(c, e)] }

def call (w : DebouncerWorld) (e : Errand) : DebouncerWorld :=
  { w.join (w.started + 1) e with started := w.started + 1 }

def cancel (w : DebouncerWorld) (c : Nat) : DebouncerWorld :=
  let debouncer := match w.errands.lookup c with
    | some (.serving _ _ (some (serial, _))) => w.debouncer.giveBack serial
    | some _ => w.debouncer.leave c
    | none => w.debouncer
  { w with debouncer, errands := w.errands.filter fun x => x.1 != c }

def giveBack (w : DebouncerWorld) (serial : Nat) : DebouncerWorld × Bool :=
  if serial ∈ w.kept then
    ({ w with debouncer := w.debouncer.giveBack serial, kept := w.kept.erase serial }, true)
  else (w, false)

def nextWithin (w : DebouncerWorld) (time : Nat) : DebouncerWorld × Option Result :=
  let finished (w : DebouncerWorld) := (w.errands.lookup Timeline.foreground).isNone
  let w := timeline.await finished (w.join Timeline.foreground (.within (w.now + Clock.span time)))
  ({ w with done := w.done.filter fun d => d.waiter != Timeline.foreground },
    (w.done.find? fun d => d.waiter == Timeline.foreground).map (·.result))

end DebouncerWorld

end Reconciliation
