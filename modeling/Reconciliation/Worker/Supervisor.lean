import Reconciliation.Worker.Mailbox

/-! # Supervised actors

When a generation fails and the policy allows it, the next one goes on with the same mailbox. What
an actor does on starting and with a command comes in as an event.
-/
namespace Reconciliation

inductive Exit where
  | stopped
  | mailboxClosed
  | cancelled
  | startupFailed (message : String)
  | handlerFailed (message : String)
  | panicked
  | joinFailed (message : String)
  deriving DecidableEq, Repr

namespace Exit

def isFailure : Exit → Bool
  | startupFailed _ | handlerFailed _ | panicked | joinFailed _ => true
  | stopped | mailboxClosed | cancelled => false

def text : Exit → String
  | stopped => "stopped"
  | mailboxClosed => "mailbox-closed"
  | cancelled => "cancelled"
  | startupFailed _ => "startup-failed"
  | handlerFailed _ => "handler-failed"
  | panicked => "panicked"
  | joinFailed _ => "join-failed"

def message? : Exit → Option String
  | startupFailed m | handlerFailed m | joinFailed m => some m
  | stopped | mailboxClosed | cancelled | panicked => none

end Exit

inductive RestartPolicy where
  | never
  | onFailure (maxRestarts backoff : Nat)
  deriving DecidableEq, Repr

namespace RestartPolicy

def delay? (p : RestartPolicy) (e : Exit) (restarts : Nat) : Option Nat :=
  match p with
  | never => none
  | onFailure maxRestarts backoff =>
    if e.isFailure && restarts < maxRestarts then some backoff else none

/-- The same policy with another way to measure its waits. -/
def mapBackoff (f : Nat → Nat) : RestartPolicy → RestartPolicy
  | never => never
  | onFailure maxRestarts backoff => onFailure maxRestarts (f backoff)

end RestartPolicy

inductive Handled where
  | goOn
  | stop
  | failed (message : String)
  | panicked
  deriving DecidableEq, Repr

inductive Started where
  | ready
  | failed (message : String)
  | panicked
  deriving DecidableEq, Repr

namespace Supervisor

inductive Stage (α : Type) where
  /-- The supervisor is about to start a generation. -/
  | launching
  /-- The generation has not begun yet. -/
  | spawned
  | starting
  /-- The generation waits for a command. -/
  | receiving
  | received (command : α)
  | handling (command : α)
  /-- The generation winds up. -/
  | stopping (exit : Exit)
  /-- The generation has ended, and the supervisor has not noticed yet. -/
  | ended (exit : Exit)
  /-- The supervisor waits before the next generation. -/
  | backingOff (due : Nat)
  | finished
  deriving DecidableEq, Repr

/-- Whether the generation is at work, and its supervisor waits for it to end. -/
def Stage.isOfGeneration {α : Type} : Stage α → Bool
  | spawned | starting | receiving | received _ | handling _ | stopping _ => true
  | launching | ended _ | backingOff _ | finished => false

end Supervisor

structure Supervisor (α : Type) where
  policy : RestartPolicy
  mailbox : Mailbox α
  cancelled : Bool
  generation : Nat
  restarts : Nat
  lastExit : Option Exit
  stage : Supervisor.Stage α
  deriving DecidableEq, Repr

namespace Supervisor

variable {α : Type}

def refusal : String := "actor mailbox closed"

/-- The number under which a generation waits at the mailbox. Nobody else may use it. -/
def receiver : Nat := 0

def start (policy : RestartPolicy) (capacity : Nat) : Supervisor α :=
  ⟨policy, .empty capacity, false, 0, 0, none, .launching⟩

def isFinished (s : Supervisor α) : Bool :=
  match s.stage with
  | .finished => true
  | _ => false

def close (s : Supervisor α) : Supervisor α :=
  { s with mailbox := s.mailbox.close }

/-- Cancelling closes the mailbox too. -/
def cancel (s : Supervisor α) : Supervisor α :=
  { s.close with cancelled := true }

def cut (s : Supervisor α) : Supervisor α :=
  { s with mailbox := s.mailbox.leave receiver, stage := .stopping .cancelled }

def canStep (s : Supervisor α) (now : Nat) : Bool :=
  match s.stage with
  | .launching | .spawned | .received _ | .stopping _ | .ended _ => true
  | .starting | .handling _ => s.cancelled
  | .receiving =>
    s.cancelled || (s.mailbox.caller? receiver).isNone || s.mailbox.canStep receiver
  | .backingOff due => s.cancelled || due ≤ now
  | .finished => false

def receive (s : Supervisor α) : Supervisor α :=
  if (s.mailbox.caller? receiver).isNone then
    { s with mailbox := s.mailbox.join receiver .receive }
  else
    match s.mailbox.step receiver with
    | (b, some (.received m)) => { s with mailbox := b, stage := .received m }
    | (b, some _) => { s with mailbox := b, stage := .stopping .mailboxClosed }
    | (b, none) => { s with mailbox := b }

def notice (s : Supervisor α) (now : Nat) (e : Exit) : Supervisor α :=
  let s := { s with lastExit := some e }
  if s.cancelled then { s with stage := .finished }
  else
    match s.policy.delay? e s.restarts with
    | none => { s with stage := .finished }
    | some backoff => { s with restarts := s.restarts + 1, stage := .backingOff (now + backoff) }

/-- The next step of the worker or its supervisor. A command that is let go unhandled, or cut short,
comes out beside it. -/
def step (s : Supervisor α) (now : Nat) : Supervisor α × Option α :=
  match s.stage with
  | .launching =>
    if s.cancelled then ({ s with lastExit := some .cancelled, stage := .finished }, none)
    else ({ s with generation := s.generation + 1, stage := .spawned }, none)
  | .spawned =>
    if s.cancelled then ({ s with stage := .ended .cancelled }, none)
    else ({ s with stage := .starting }, none)
  | .starting =>
    if s.cancelled then ({ s with stage := .ended .cancelled }, none) else (s, none)
  | .receiving => if s.cancelled then (s.cut, none) else (s.receive, none)
  | .received m => if s.cancelled then (s.cut, some m) else ({ s with stage := .handling m }, none)
  | .handling m => if s.cancelled then (s.cut, some m) else (s, none)
  | .stopping e => ({ s with stage := .ended e }, none)
  | .ended e => (s.notice now e, none)
  | .backingOff due =>
    if s.cancelled then ({ s with lastExit := some .cancelled, stage := .finished }, none)
    else if due ≤ now then ({ s with stage := .launching }, none)
    else (s, none)
  | .finished => (s, none)

def started (s : Supervisor α) (r : Started) : Supervisor α :=
  match s.stage with
  | .starting =>
    { s with stage := match r with
      | .ready => .receiving
      | .failed m => .ended (.startupFailed m)
      | .panicked => .ended .panicked }
  | _ => s

def handled (s : Supervisor α) (r : Handled) : Supervisor α :=
  match s.stage with
  | .handling _ =>
    { s with stage := match r with
      | .goOn => .receiving
      | .stop => .stopping .stopped
      | .failed m => .stopping (.handlerFailed m)
      | .panicked => .ended .panicked }
  | _ => s

/-- No actor can be made for the next generation: what is to make it panics, and the supervisor with
it, once the generation has been counted. -/
def crash (s : Supervisor α) : Supervisor α :=
  match s.stage with
  | .launching =>
    if s.cancelled then s else { s with generation := s.generation + 1, stage := .finished }
  | _ => s

inductive Event (α : Type) where
  /-- Somebody else does something at the mailbox. -/
  | mailbox (e : Mailbox.Event α)
  | step (now : Nat)
  | crash
  | started (r : Started)
  | handled (r : Handled)
  | close
  | cancel
  deriving DecidableEq, Repr

def next (s : Supervisor α) : Event α → Supervisor α
  | .mailbox e => { s with mailbox := s.mailbox.next e }
  | .step now => (s.step now).1
  | .crash => s.crash
  | .started r => s.started r
  | .handled r => s.handled r
  | .close => s.close
  | .cancel => s.cancel

def alarm? (s : Supervisor α) : Option Nat :=
  match s.stage with
  | .backingOff due => some due
  | _ => none

end Supervisor

end Reconciliation
