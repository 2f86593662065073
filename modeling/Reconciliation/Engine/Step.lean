import Reconciliation.Engine.Basic

/-! # Steps of the engine

What callers do to the engine, and what its tasks do on their own: the pump, the actor with its
supervisor, the shutdown. Every function is one atomic step.
-/
namespace Reconciliation.Engine

def request (e : Engine) : Engine × Request :=
  let (debouncer, r) := e.debouncer.request
  ({ e with debouncer }, r)

def heard (e : Engine) : Engine :=
  if e.listening then e.request.1 else e

def mutate (e : Engine) (m : Mutation) : Engine × Mutation.Answer :=
  let (store, a) := e.store.mutate m
  let e := { e with store }
  (if a.change.isSome then e.heard else e, a)

def storeRuntime (e : Engine) (p : Properties) : Engine :=
  { e with runtime := e.runtime.store p }

def advanceRuntime (e : Engine) : Engine :=
  ({ e with runtime := e.runtime.advance } : Engine).heard

def replaceRuntime (e : Engine) (p : Properties) : Engine :=
  (e.storeRuntime p).advanceRuntime

def settled (e : Engine) (watcher : Nat) : Engine :=
  { e with board := e.board.join watcher e.changeCount }

def watch (e : Engine) (watcher : Nat) : Engine × Option (Option Status) :=
  let (board, r) := e.board.step watcher
  ({ e with board }, r)

def unwatch (e : Engine) (watcher : Nat) : Engine :=
  { e with board := e.board.leave watcher }

def giveBack (e : Engine) (serial : Nat) : Engine :=
  { e with debouncer := e.debouncer.giveBack serial }

def canPump (e : Engine) (now : Nat) : Bool :=
  match e.pump with
  | .asking => e.debouncer.canStep now pumpId
  | .sending _ => e.actor.mailbox.canStep pumpId
  | .ended => false

/-- A ticket is taken to the mailbox; when it cannot be left there, it comes back and the pump ends. -/
def stepPump (e : Engine) (now : Nat) : Engine :=
  match e.pump with
  | .asking =>
    match e.debouncer.step now pumpId with
    | (debouncer, none) => { e with debouncer }
    | (debouncer, some (.ticket serial)) =>
      { e with
        debouncer
        pump := .sending serial
        actor := { e.actor with mailbox := e.actor.mailbox.join pumpId (.send (.pass serial)) } }
    | (debouncer, some .closed) => { e with debouncer, pump := .ended }
  | .sending serial =>
    match e.actor.mailbox.step pumpId with
    | (mailbox, none) => { e with actor := { e.actor with mailbox } }
    | (mailbox, some .sent) =>
      { e with
        actor := { e.actor with mailbox }
        pump := .asking
        debouncer := e.debouncer.join pumpId }
    | (mailbox, some _) =>
      ({ e with actor := { e.actor with mailbox }, pump := .ended } : Engine).giveBack serial
  | .ended => e

def dropCommand (e : Engine) : Command → Engine
  | .pass serial => e.giveBack serial
  | .shutdown => { e with reply := .lost }

def workOf : Command → Work
  | .pass serial => .opening serial
  | .shutdown => .unpublishing

def canAct (e : Engine) (now : Nat) : Bool :=
  e.actor.canStep now ||
    match e.actor.stage with
    | .starting => true
    | .handling _ => e.call?.isNone
    | _ => false

/-- A pass is over: the status is published, the ticket comes back, and the event is told. -/
def completePass (e : Engine) (serial changeCount : Nat) (resolution : Resolution) (run : Run) :
    Engine :=
  let e := { e with
    live := run.finalLive
    board := e.board.publish (.ofResolution resolution changeCount serial)
    work := none }
  let e := e.giveBack serial
  { e with
    events := e.events.emit ⟨serial, changeCount, run.report⟩
    actor := e.actor.handled .goOn }

def stepWork (e : Engine) : Engine :=
  match e.work with
  | none => e
  | some (.opening serial) => { e with work := some (.knowingRevision serial e.runtime.revision) }
  | some (.knowingRevision serial revision) =>
    { e with work := some (.knowingRuntime serial revision e.runtime.properties) }
  | some (.knowingRuntime serial revision runtime) =>
    let resolution := e.reconciler.run e.store.snapshot runtime
    { e with
      work := some (.deploying serial (resolution.changeCount + revision) resolution
        (.towards e.live resolution.applications)) }
  | some (.deploying serial changeCount resolution run) =>
    if run.call?.isSome then e else e.completePass serial changeCount resolution run
  | some .unpublishing =>
    { e with board := e.board.unpublish, work := some (.tearingDown (.teardown e.live)) }
  | some (.tearingDown run) =>
    if run.call?.isSome then e
    else
      { e with
        live := run.finalLive
        work := none
        reply := .given run.report
        actor := e.actor.handled .stop }

/-- A step of the actor or its supervisor. Cancelling drops the command at hand. -/
def stepActor (e : Engine) (now : Nat) : Engine :=
  if e.actor.canStep now then
    match e.actor.step now with
    | (actor, some command) => ({ e with actor, work := none } : Engine).dropCommand command
    | (actor, none) =>
      match e.actor.stage with
      | .received command => { e with actor, work := some (workOf command) }
      | _ => { e with actor }
  else
    match e.actor.stage with
    | .starting => { e with actor := e.actor.started .ready }
    | .handling _ => e.stepWork
    | _ => e

def respond (e : Engine) (response : Response) : Engine :=
  match e.work with
  | some (.deploying serial changeCount resolution run) =>
    let run := run.answer response
    { e with live := run.live, work := some (.deploying serial changeCount resolution run) }
  | some (.tearingDown run) =>
    let run := run.answer response
    { e with live := run.live, work := some (.tearingDown run) }
  | _ => e

def explode (e : Engine) : Engine :=
  match e.actor.stage with
  | .handling command =>
    ({ e with actor := e.actor.handled .panicked, work := none } : Engine).dropCommand command
  | _ => e

def lastMoment (e : Engine) (now : Nat) : Nat :=
  now + Clock.span e.config.shutdownTimeout

/-- The first call of shutdown closes the debouncer, stops listening and sends the command; any
other is refused. -/
def shutdown (e : Engine) (now : Nat) : Engine × Option Farewell :=
  if e.closed then (e, some .shutDown)
  else
    ({ e with
        closed := true
        listening := false
        debouncer := e.debouncer.close
        closing := .sending (e.lastMoment now)
        actor := { e.actor with mailbox := e.actor.mailbox.join closerId (.send .shutdown) } },
      none)

/-- The timeout has passed: the caller is told, and hands the shutdown over. -/
def timeOut (e : Engine) : Engine × Option Farewell :=
  ({ e with
      closing := .handedOver
      actor := { e.actor with mailbox := e.actor.mailbox.leave closerId } },
    some (.timedOut e.config.shutdownTimeout))

/-- The actor may finish what it has been sent, and gets so long for it. -/
def awaitEnd (e : Engine) (now : Nat) : Engine :=
  { e with actor := e.actor.close, join := e.join.join closerId (some (e.lastMoment now)) }

def canClose (e : Engine) (now : Nat) : Bool :=
  match e.closing with
  | .open | .over => false
  | .sending deadline => e.actor.mailbox.canStep closerId || deadline ≤ now
  | .awaiting deadline => e.reply != .awaited || deadline ≤ now
  | .handedOver => true
  | .joining _ | .patient | .forcing => e.join.canStep e.actor.isFinished now closerId

def stepClosing (e : Engine) (now : Nat) : Engine × Option Farewell :=
  match e.closing with
  | .open | .over => (e, none)
  | .sending deadline =>
    if e.actor.mailbox.canStep closerId then
      match e.actor.mailbox.step closerId with
      | (mailbox, none) => ({ e with actor := { e.actor with mailbox } }, none)
      | (mailbox, some .sent) =>
        ({ e with actor := { e.actor with mailbox }, closing := .awaiting deadline }, none)
      | (mailbox, some _) =>
        ({ e with actor := { e.actor with mailbox }, closing := .over }, some .shutDown)
    else if deadline ≤ now then e.timeOut
    else (e, none)
  | .awaiting deadline =>
    match e.reply with
    | .given report => ({ e.awaitEnd now with closing := .joining report }, none)
    | .lost => ({ e with closing := .over }, some .shutDown)
    | .awaited => if deadline ≤ now then e.timeOut else (e, none)
  | .joining report =>
    match e.join.step e.actor.isFinished now closerId with
    | (join, none) => ({ e with join }, none)
    | (join, some _) => ({ e with join, closing := .over }, some (.done report))
  | .handedOver => ({ e.awaitEnd now with closing := .patient }, none)
  | .patient =>
    match e.join.step e.actor.isFinished now closerId with
    | (join, none) => ({ e with join }, none)
    | (join, some true) => ({ e with join, closing := .over }, none)
    | (join, some false) =>
      ({ e with closing := .forcing, actor := e.actor.cancel, join := join.join closerId none },
        none)
  | .forcing =>
    match e.join.step e.actor.isFinished now closerId with
    | (join, none) => ({ e with join }, none)
    | (join, some _) => ({ e with join, closing := .over }, none)

/-- The caller of a shutdown goes away before it is told anything. -/
def abandonShutdown (e : Engine) : Engine :=
  match e.closing with
  | .sending _ =>
    { e with
      closing := .over
      actor := { e.actor with mailbox := e.actor.mailbox.leave closerId } }
  | .awaiting _ => { e with closing := .over }
  | .joining _ => { e with closing := .over, join := e.join.leave closerId }
  | .open | .handedOver | .patient | .forcing | .over => e

inductive Event where
  | mutate (m : Mutation)
  | storeRuntime (p : Properties)
  | advanceRuntime
  | request
  | settled (watcher : Nat)
  | watch (watcher : Nat)
  | unwatch (watcher : Nat)
  | pump (now : Nat)
  | act (now : Nat)
  | respond (response : Response)
  | explode
  | shutdown (now : Nat)
  | close (now : Nat)
  | abandonShutdown

def next (e : Engine) : Event → Engine
  | .mutate m => (e.mutate m).1
  | .storeRuntime p => e.storeRuntime p
  | .advanceRuntime => e.advanceRuntime
  | .request => e.request.1
  | .settled watcher => e.settled watcher
  | .watch watcher => (e.watch watcher).1
  | .unwatch watcher => e.unwatch watcher
  | .pump now => e.stepPump now
  | .act now => e.stepActor now
  | .respond response => e.respond response
  | .explode => e.explode
  | .shutdown now => (e.shutdown now).1
  | .close now => (e.stepClosing now).1
  | .abandonShutdown => e.abandonShutdown

end Reconciliation.Engine
