import Reconciliation.Store.Basic

/-! # Listeners

One listener at a time can be installed at a store. It is told the change count of each mutation
that publishes one, once the mutation is published.
-/
namespace Reconciliation

/-- What a listener does when it is told a change count. It works on a memory of its own. -/
abbrev Listener (σ : Type) := σ → Nat → σ

def Listener.scribe : Listener (List Nat) :=
  fun told count => told ++ [count]

/-- Tells the outcome of a mutation to the listener, if one is installed. -/
def Listener.tell {σ : Type} (listener : Option (Listener σ)) (memory : σ)
    (a : Mutation.Answer) : σ :=
  match listener, a.change with
  | some hear, some count => hear memory count
  | _, _ => memory

structure Announcer (σ : Type) where
  store : Store
  listener : Option (Listener σ)
  memory : σ

namespace Announcer

variable {σ : Type}

def mutate (w : Announcer σ) (m : Mutation) : Announcer σ × Mutation.Answer :=
  let (store, a) := w.store.mutate m
  ({ w with store, memory := Listener.tell w.listener w.memory a }, a)

end Announcer

end Reconciliation
