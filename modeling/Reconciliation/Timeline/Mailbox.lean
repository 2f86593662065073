import Reconciliation.Timeline.Basic
import Reconciliation.Worker.Mailbox

/-! # A mailbox in use

Senders and receivers come one after the other; whoever has to wait is served first come, first
served. No time passes.
-/
namespace Reconciliation

structure MailboxWorld where
  clock : Clock
  box : Mailbox Int
  /-- Callers so far. Their numbers begin at 1. -/
  started : Nat
  done : List (Completion (Mailbox.Outcome Int))
  deriving Repr

namespace MailboxWorld

def start (capacity : Nat) : MailboxWorld := ⟨.start, .empty capacity, 0, []⟩

def step (w : MailboxWorld) (c : Nat) : MailboxWorld :=
  match w.box.step c with
  | (box, some r) => { w with box, done := w.done ++ [⟨c, r, w.clock.now⟩] }
  | (box, none) => { w with box }

def timeline : Timeline MailboxWorld where
  clock := (·.clock)
  setClock w clock := { w with clock }
  tasks w := w.box.callers.map (·.id)
  canStep w := w.box.canStep
  step := step
  alarms _ := []

def call (w : MailboxWorld) (want : Mailbox.Want Int) : MailboxWorld :=
  { w with box := w.box.join (w.started + 1) want, started := w.started + 1 }

end MailboxWorld

end Reconciliation
