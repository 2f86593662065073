import Reconciliation.Properties.Map

/-! # Selectors

A selector is a filter over property maps together with the text it was read from. Two selectors say
the same when their filters are equal; the text may differ in insignificant blanks.
-/
namespace Reconciliation

inductive Condition where
  | equal (value : String)
  | approx (value : String)
  | atLeast (value : String)
  | atMost (value : String)
  | present
  | substring (first : Option String) (middle : List String) (last : Option String)
  deriving DecidableEq, Repr

inductive Filter where
  | all (parts : List Filter)
  | any (parts : List Filter)
  | negation (part : Filter)
  | item (name : String) (condition : Condition)
  deriving Repr

namespace Filter

mutual

def decEq : (a b : Filter) → Decidable (a = b)
  | all as, all bs => match decEqList as bs with
    | isTrue h => isTrue (h ▸ rfl)
    | isFalse h => isFalse fun e => h (all.inj e)
  | any as, any bs => match decEqList as bs with
    | isTrue h => isTrue (h ▸ rfl)
    | isFalse h => isFalse fun e => h (any.inj e)
  | negation a, negation b => match decEq a b with
    | isTrue h => isTrue (h ▸ rfl)
    | isFalse h => isFalse fun e => h (negation.inj e)
  | item n c, item m d =>
    if h : n = m ∧ c = d then isTrue (by rw [h.1, h.2]) else isFalse fun e => h (item.inj e)
  | all _, any _ => isFalse nofun
  | all _, negation _ => isFalse nofun
  | all _, item _ _ => isFalse nofun
  | any _, all _ => isFalse nofun
  | any _, negation _ => isFalse nofun
  | any _, item _ _ => isFalse nofun
  | negation _, all _ => isFalse nofun
  | negation _, any _ => isFalse nofun
  | negation _, item _ _ => isFalse nofun
  | item _ _, all _ => isFalse nofun
  | item _ _, any _ => isFalse nofun
  | item _ _, negation _ => isFalse nofun

def decEqList : (as bs : List Filter) → Decidable (as = bs)
  | [], [] => isTrue rfl
  | [], _ :: _ => isFalse nofun
  | _ :: _, [] => isFalse nofun
  | a :: as, b :: bs => match decEq a b, decEqList as bs with
    | isTrue h, isTrue hs => isTrue (h ▸ hs ▸ rfl)
    | isFalse h, _ => isFalse fun e => h (List.cons.inj e).1
    | _, isFalse h => isFalse fun e => h (List.cons.inj e).2

end

instance : DecidableEq Filter := decEq

end Filter

structure Selector where
  /-- The text, without blanks around it. -/
  source : String
  root : Filter
  deriving DecidableEq, Repr

namespace Selector

def same (a b : Selector) : Bool :=
  a.root == b.root

def isSpecial (c : Char) : Bool :=
  c == '(' || c == ')' || c == '*' || c == '\\'

def escape (cs : List Char) : List Char :=
  cs.flatMap fun c => if isSpecial c then ['\\', c] else [c]

/-- The selector of one equality item. The name is taken as it is. -/
def equals (name value : String) : Selector :=
  ⟨"(" ++ name ++ "=" ++ String.ofList (escape value.toList) ++ ")", .item name (.equal value)⟩

def equality? (s : Selector) : Option (String × String) :=
  match s.root with
  | .item name (.equal value) => some (name, value)
  | _ => none

end Selector

end Reconciliation
