import Reconciliation.Selector.Basic
import Reconciliation.Text.Lowercase

/-! # Matching

What it means for a property map to satisfy a filter. An item whose attribute is absent is never
satisfied; a list satisfies a condition through any of its items.
-/
namespace Reconciliation

/-- Equal texts of this form are approximately equal: no blanks, all letters small. -/
def looseForm (s : String) : List Char :=
  Text.lowercase (s.toList.filter fun c => !Text.isBlank c)

def afterFirst? (part : List Char) : List Char → Option (List Char)
  | [] => part.isPrefixOf? []
  | c :: cs =>
    match part.isPrefixOf? (c :: cs) with
    | some rest => some rest
    | none => afterFirst? part cs

/-- What is left of a text when the parts have been found in it one after the other. -/
def afterParts? : List (List Char) → List Char → Option (List Char)
  | [], cs => some cs
  | part :: parts, cs => (afterFirst? part cs).bind (afterParts? parts)

/-- Whether a text begins with `first`, ends with `last`, and holds the `middle` parts in between,
in their order and without overlap. -/
def substringMatches (first : Option String) (middle : List String) (last : Option String)
    (actual : List Char) : Bool :=
  let start := match first with
    | some f => f.toList.isPrefixOf? actual
    | none => some actual
  match start.bind (afterParts? (middle.map String.toList)) with
  | some rest => last.all fun l => l.toList.isSuffixOf rest
  | none => false

namespace Condition

def holdsText (c : Condition) (actual : String) : Bool :=
  match c with
  | present => true
  | equal v => actual == v
  | approx v => looseForm actual == looseForm v
  | atLeast v => v ≤ actual
  | atMost v => actual ≤ v
  | substring first middle last => substringMatches first middle last actual.toList

/-- Integers are compared as numbers; a value that is no numeral is never met. -/
def holdsInteger (c : Condition) (actual : Int64) : Bool :=
  match c with
  | present => true
  | equal v | approx v => Text.int64Of? v == some actual
  | atLeast v => (Text.int64Of? v).any fun n => n.toInt ≤ actual.toInt
  | atMost v => (Text.int64Of? v).any fun n => actual.toInt ≤ n.toInt
  | substring first middle last =>
    substringMatches first middle last (Text.decimal actual).toList

def holdsFlag (c : Condition) (actual : Bool) : Bool :=
  match c with
  | present => true
  | equal v | approx v => Text.sameLetters (Text.trim v) (Value.flagText actual)
  | atLeast _ | atMost _ => false
  | substring first middle last =>
    substringMatches first middle last (Value.flagText actual).toList

def holds (c : Condition) : Value → Bool
  | .flag b => c.holdsFlag b
  | .integer n => c.holdsInteger n
  | .text s => c.holdsText s
  | .list items => c == present || items.any c.holdsText

end Condition

namespace Filter

mutual

def holds (p : Properties) : Filter → Bool
  | all parts => holdsAll p parts
  | any parts => holdsAny p parts
  | negation part => !part.holds p
  | item name condition => (p.get? name).any condition.holds

def holdsAll (p : Properties) : List Filter → Bool
  | [] => true
  | f :: fs => f.holds p && holdsAll p fs

def holdsAny (p : Properties) : List Filter → Bool
  | [] => false
  | f :: fs => f.holds p || holdsAny p fs

end

theorem holdsAll_eq (p : Properties) (fs : List Filter) : holdsAll p fs = fs.all (holds p) := by
  induction fs with
  | nil => rfl
  | cons f fs ih => simp [holdsAll, ih]

theorem holdsAny_eq (p : Properties) (fs : List Filter) : holdsAny p fs = fs.any (holds p) := by
  induction fs with
  | nil => rfl
  | cons f fs ih => simp [holdsAny, ih]

end Filter

def Selector.accepts (s : Selector) (p : Properties) : Bool :=
  s.root.holds p

end Reconciliation
