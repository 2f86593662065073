import Reconciliation.Worker.Signal

/-! # Debouncing

Requests for a pass are gathered: the first one queues a pass, which starts one interval after it
was picked up. Whoever waits for the next pass gets a ticket for it; while the ticket is out, a
request marks the pass dirty, and then the next pass is queued when the ticket comes back. Closing
is final.
-/
namespace Reconciliation

inductive Phase where
  | idle
  | queued
  | running (dirty : Bool)
  | closed
  deriving DecidableEq, Repr

def Phase.text : Phase → String
  | idle => "idle"
  | queued => "queued"
  | running false => "running"
  | running true => "running-dirty"
  | closed => "closed"

inductive Request where
  | queued
  | alreadyQueued
  | markedDirty
  | closed
  deriving DecidableEq, Repr

def Request.text : Request → String
  | queued => "queued"
  | alreadyQueued => "already-queued"
  | markedDirty => "marked-dirty"
  | closed => "closed"

namespace Debouncer

inductive Wait where
  /-- About to look at the phase. -/
  | looking
  /-- Asleep until the queued pass is due. -/
  | sleeping (due : Nat)
  /-- Standing at the signal until a pass is queued. -/
  | listening
  deriving DecidableEq, Repr

/-- What a caller comes away with: a ticket with its serial number, or nothing any more. -/
inductive Next where
  | ticket (serial : Nat)
  | closed
  deriving DecidableEq, Repr

end Debouncer

structure Debouncer where
  interval : Nat
  phase : Phase
  /-- Tickets issued so far. -/
  issued : Nat
  wake : Signal
  callers : List (Nat × Debouncer.Wait)
  /-- Tickets that are out. -/
  held : List Nat
  deriving DecidableEq, Repr

namespace Debouncer

def start (interval : Nat) : Debouncer :=
  ⟨interval, .idle, 0, .idle, [], []⟩

def request (d : Debouncer) : Debouncer × Request :=
  match d.phase with
  | .idle => ({ d with phase := .queued, wake := d.wake.notify }, .queued)
  | .queued => (d, .alreadyQueued)
  | .running _ => ({ d with phase := .running true }, .markedDirty)
  | .closed => (d, .closed)

def close (d : Debouncer) : Debouncer :=
  { d with phase := .closed }

def giveBack (d : Debouncer) (serial : Nat) : Debouncer :=
  let d := { d with held := d.held.erase serial }
  match d.phase with
  | .running true => { d with phase := .queued, wake := d.wake.notify }
  | .running false => { d with phase := .idle }
  | .idle | .queued | .closed => d

def wait? (d : Debouncer) (c : Nat) : Option Wait :=
  d.callers.lookup c

def setWait (d : Debouncer) (c : Nat) (w : Wait) : Debouncer :=
  { d with callers := d.callers.map fun x => if x.1 == c then (c, w) else x }

def join (d : Debouncer) (c : Nat) : Debouncer :=
  { d with callers := d.callers ++ [(c, .looking)] }

def leave (d : Debouncer) (c : Nat) : Debouncer :=
  { d with
    wake := match d.wait? c with
      | some .listening => d.wake.leave c
      | _ => d.wake
    callers := d.callers.filter fun x => x.1 != c }

def canStep (d : Debouncer) (now c : Nat) : Bool :=
  match d.wait? c with
  | none => false
  | some .looking => true
  | some (.sleeping due) => d.phase == .closed || due ≤ now
  | some .listening => d.phase == .closed || !d.wake.holds c

def issue (d : Debouncer) (c : Nat) : Debouncer × Option Next :=
  let serial := d.issued + 1
  ({ d.leave c with phase := .running false, issued := serial, held := d.held ++ [serial] },
    some (.ticket serial))

def step (d : Debouncer) (now c : Nat) : Debouncer × Option Next :=
  match d.wait? c with
  | none => (d, none)
  | some .looking =>
    match d.phase with
    | .closed => (d.leave c, some .closed)
    | .queued => (d.setWait c (.sleeping (now + d.interval)), none)
    | .idle | .running _ =>
      if d.wake.kept then ({ d with wake := d.wake.enlist c }, none)
      else ({ d.setWait c .listening with wake := d.wake.enlist c }, none)
  | some (.sleeping due) =>
    if d.phase = .closed then (d.leave c, some .closed)
    else if due ≤ now then
      if d.phase = .queued then d.issue c else (d.setWait c .looking, none)
    else (d, none)
  | some .listening =>
    if d.phase = .closed then (d.leave c, some .closed)
    else if d.wake.holds c then (d, none)
    else ({ d.setWait c .looking with wake := d.wake.resume c }, none)

inductive Event where
  | request
  | close
  | giveBack (serial : Nat)
  | join (caller : Nat)
  | step (now caller : Nat)
  | leave (caller : Nat)
  deriving DecidableEq, Repr

/-- Tickets come back only from those who hold them; callers come under fresh numbers. -/
def Enabled (d : Debouncer) : Event → Prop
  | .request | .close => True
  | .giveBack serial => serial ∈ d.held
  | .join c => d.wait? c = none
  | .step _ c | .leave c => d.wait? c ≠ none

def next (d : Debouncer) : Event → Debouncer
  | .request => d.request.1
  | .close => d.close
  | .giveBack serial => d.giveBack serial
  | .join c => d.join c
  | .step now c => (d.step now c).1
  | .leave c => d.leave c

def alarms (d : Debouncer) : List (Nat × Nat) :=
  d.callers.filterMap fun x => match x.2 with
    | .sleeping due => some (x.1, due)
    | _ => none

end Debouncer

end Reconciliation
