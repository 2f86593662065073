import Reconciliation.Worker.Signal

/-! # Mailboxes

A bounded queue of messages. Senders wait for room and receivers for a message; each of them goes
through atomic steps: it takes its place at the signal, tries, and waits if it had no luck.
-/
namespace Reconciliation

inductive SendError where
  | closed
  | full
  deriving DecidableEq, Repr

def SendError.message : SendError → String
  | closed => "mailbox closed"
  | full => "mailbox full"

namespace Mailbox

inductive Want (α : Type) where
  | send (message : α)
  | receive
  deriving DecidableEq, Repr

inductive Stage where
  /-- About to take a place at the signal. -/
  | arriving
  /-- About to try. -/
  | enlisted
  /-- Has tried in vain. -/
  | waiting
  deriving DecidableEq, Repr

structure Caller (α : Type) where
  id : Nat
  want : Want α
  stage : Stage
  deriving DecidableEq, Repr

inductive Outcome (α : Type) where
  | sent
  | refused
  | received (message : α)
  | drained
  deriving DecidableEq, Repr

end Mailbox

structure Mailbox (α : Type) where
  capacity : Nat
  items : List α
  closed : Bool
  readable : Signal
  writable : Signal
  callers : List (Mailbox.Caller α)
  deriving DecidableEq, Repr

namespace Mailbox

variable {α : Type}

def empty (capacity : Nat) : Mailbox α :=
  ⟨capacity, [], false, .idle, .idle, []⟩

def fault? (capacity : Nat) : Option String :=
  if capacity = 0 then some "mailbox capacity must be > 0" else none

def close (b : Mailbox α) : Mailbox α :=
  { b with closed := true, readable := b.readable.notifyAll, writable := b.writable.notifyAll }

def obstacle (b : Mailbox α) : Option SendError :=
  if b.closed then some .closed
  else if b.items.length ≥ b.capacity then some .full
  else none

def push (b : Mailbox α) (m : α) : Mailbox α :=
  { b with items := b.items ++ [m], readable := b.readable.notify }

def trySend (b : Mailbox α) (m : α) : Mailbox α × Except SendError Unit :=
  match b.obstacle with
  | some e => (b, .error e)
  | none => (b.push m, .ok ())

def caller? (b : Mailbox α) (c : Nat) : Option (Caller α) :=
  b.callers.find? fun x => x.id == c

def signal (b : Mailbox α) : Want α → Signal
  | .send _ => b.writable
  | .receive => b.readable

def mapSignal (b : Mailbox α) (w : Want α) (f : Signal → Signal) : Mailbox α :=
  match w with
  | .send _ => { b with writable := f b.writable }
  | .receive => { b with readable := f b.readable }

def setStage (b : Mailbox α) (c : Nat) (s : Stage) : Mailbox α :=
  { b with callers := b.callers.map fun x => if x.id == c then { x with stage := s } else x }

def join (b : Mailbox α) (c : Nat) (w : Want α) : Mailbox α :=
  { b with callers := b.callers ++ [⟨c, w, .arriving⟩] }

def leave (b : Mailbox α) (c : Nat) : Mailbox α :=
  match b.caller? c with
  | none => b
  | some x =>
    { b.mapSignal x.want (·.leave c) with callers := b.callers.filter fun y => y.id != c }

def attempt (b : Mailbox α) (c : Nat) : Want α → Mailbox α × Option (Outcome α)
  | .send m =>
    match b.obstacle with
    | none => ((b.push m).leave c, some .sent)
    | some .closed => (b.leave c, some .refused)
    | some .full => (b.setStage c .waiting, none)
  | .receive =>
    match b.items with
    | m :: rest =>
      (({ b with items := rest, writable := b.writable.notify } : Mailbox α).leave c,
        some (.received m))
    | [] => if b.closed then (b.leave c, some .drained) else (b.setStage c .waiting, none)

def canStep (b : Mailbox α) (c : Nat) : Bool :=
  match b.caller? c with
  | none => false
  | some x => x.stage != .waiting || !(b.signal x.want).holds c

def step (b : Mailbox α) (c : Nat) : Mailbox α × Option (Outcome α) :=
  match b.caller? c with
  | none => (b, none)
  | some x =>
    match x.stage with
    | .arriving => ((b.mapSignal x.want (·.enlist c)).setStage c .enlisted, none)
    | .enlisted => b.attempt c x.want
    | .waiting =>
      if (b.signal x.want).holds c then (b, none)
      else ((b.mapSignal x.want (·.resume c)).setStage c .arriving, none)

inductive Event (α : Type) where
  | trySend (message : α)
  | join (caller : Nat) (want : Want α)
  | step (caller : Nat)
  | leave (caller : Nat)
  | close
  deriving DecidableEq, Repr

/-- An event comes about only where it makes sense: callers come under fresh numbers, and only those
who are there go on or go away. -/
def Enabled (b : Mailbox α) : Event α → Prop
  | .trySend _ | .close => True
  | .join c _ => b.caller? c = none
  | .step c | .leave c => b.caller? c ≠ none

def next (b : Mailbox α) : Event α → Mailbox α
  | .trySend m => (b.trySend m).1
  | .join c w => b.join c w
  | .step c => (b.step c).1
  | .leave c => b.leave c
  | .close => b.close

end Mailbox

end Reconciliation
