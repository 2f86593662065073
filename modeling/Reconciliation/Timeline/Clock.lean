/-! # Clocks

A clock tells the time, keeps the line of the tasks that have been called and the alarms that tasks
have set. Alarms that are due at one moment ring in the order in which they were set.
-/
namespace Reconciliation

/-- A task wants to be called at a moment. The mark tells apart the alarms that a task sets one after
the other for the same moment. -/
structure Alarm where
  task : Nat
  due : Nat
  mark : Nat
  deriving DecidableEq, Repr

structure Clock where
  now : Nat
  /-- Tasks that have been called, the first one in front. -/
  line : List Nat
  /-- Alarms, the first one set in front. -/
  alarms : List Alarm
  deriving DecidableEq, Repr

namespace Clock

def start : Clock := ⟨0, [], []⟩

/-- Nobody sleeps longer than thirty years of 365 days. -/
def span (time : Nat) : Nat :=
  min time (30 * 365 * 24 * 60 * 60 * 1000)

def call (c : Clock) (task : Nat) : Clock :=
  if c.line.contains task then c else { c with line := c.line ++ [task] }

def adjust (c : Clock) (wanted : List Alarm) : Clock :=
  { c with
    alarms := c.alarms.filter wanted.contains ++ wanted.filter fun a => !c.alarms.contains a }

def rung (c : Clock) (moment : Nat) : List Nat :=
  (c.alarms.filter fun a => a.due ≤ moment).map (·.task)

def nextAlarm? (c : Clock) : Option Nat :=
  ((c.alarms.map (·.due)).filter (c.now < ·)).min?

end Clock

end Reconciliation
