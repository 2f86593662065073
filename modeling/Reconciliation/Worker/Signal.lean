/-! # Signals

Callers who have nothing to do stand in line at a signal. One call wakes the caller at the head of
the line, or is kept for the next one to come if nobody stands there; at most one call is kept. A
general call wakes everybody and is not kept. Who leaves after having been called alone passes the
call on.
-/
namespace Reconciliation

structure Signal where
  /-- A call that nobody has taken yet. -/
  kept : Bool
  /-- Callers in line, the first one to come in front. -/
  line : List Nat
  /-- Callers who were called alone and have not come back yet. -/
  called : List Nat
  deriving DecidableEq, Repr

namespace Signal

def idle : Signal := ⟨false, [], []⟩

/-- A caller takes the kept call, if there is one, or else a place in line. -/
def enlist (s : Signal) (c : Nat) : Signal :=
  if s.kept then { s with kept := false }
  else if c ∈ s.line then s
  else { s with line := s.line ++ [c] }

def holds (s : Signal) (c : Nat) : Bool :=
  s.line.contains c

def notify (s : Signal) : Signal :=
  match s.line with
  | [] => { s with kept := true }
  | c :: rest => { s with line := rest, called := s.called ++ [c] }

def notifyAll (s : Signal) : Signal :=
  { s with line := [] }

def resume (s : Signal) (c : Nat) : Signal :=
  { s with called := s.called.erase c }

def leave (s : Signal) (c : Nat) : Signal :=
  if c ∈ s.called then (s.resume c).notify
  else { s with line := s.line.erase c }

end Signal

end Reconciliation
