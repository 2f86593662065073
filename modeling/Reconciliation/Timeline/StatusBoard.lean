import Reconciliation.Timeline.Basic
import Reconciliation.Worker.StatusBoard

/-! # A status board in use

Watchers come one after the other and wait for the status that they need. No time passes.
-/
namespace Reconciliation

structure BoardWorld where
  clock : Clock
  board : StatusBoard
  /-- Watchers so far. Their numbers begin at 1. -/
  started : Nat
  done : List (Completion (Option Status))
  deriving Repr

namespace BoardWorld

def start : BoardWorld := ⟨.start, .empty, 0, []⟩

def step (w : BoardWorld) (c : Nat) : BoardWorld :=
  match w.board.step c with
  | (board, some r) => { w with board, done := w.done ++ [⟨c, r, w.clock.now⟩] }
  | (board, none) => { w with board }

def timeline : Timeline BoardWorld where
  clock := (·.clock)
  setClock w clock := { w with clock }
  tasks w := w.board.watchers.map (·.id)
  canStep w := w.board.canStep
  step := step
  alarms _ := []

def watch (w : BoardWorld) (target : Nat) : BoardWorld :=
  { w with board := w.board.join (w.started + 1) target, started := w.started + 1 }

end BoardWorld

end Reconciliation
