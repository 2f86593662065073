import Reconciliation.Provider.Content

/-! # Requirements of an application and its members

A requirement is met by the application's properties, by the runtime or by another extension among
the members. The graph says who can meet what; nodes with a broken requirement are taken out until
none is left. Node 0 is the application, node `n + 1` the member number `n`.
-/
namespace Reconciliation

/-- Met by the application or the runtime, a requirement can never break. -/
def metByContext (s : Selector) (owner runtime : Properties) : Bool :=
  s.accepts owner || s.accepts runtime

/-- Whether every selector is met by the context or by one of the siblings. -/
def requirementsMet (selectors : List Selector) (siblings : List Properties)
    (owner runtime : Properties) : Bool :=
  selectors.all fun s => metByContext s owner runtime || siblings.any s.accepts

structure Member where
  kind : ContentKind
  properties : Properties
  requires : List Selector
  deriving DecidableEq, Repr

structure Site where
  properties : Properties
  requires : List Selector
  members : List Member
  runtime : Properties
  deriving DecidableEq, Repr

/-- What became of a site: the selector that broke the application, and the members that were taken
out, each with the selector that broke it, in the order in which they were taken out. -/
structure Outcome where
  application : Option Selector
  removed : List (Nat × Selector)
  deriving DecidableEq, Repr

namespace Outcome

def intact : Outcome := ⟨none, []⟩

def isRemoved (o : Outcome) (member : Nat) : Bool :=
  o.removed.any fun r => r.1 == member

def add (o : Outcome) (node : Nat) (s : Selector) : Outcome :=
  match node with
  | 0 => { o with application := some s }
  | member + 1 => { o with removed := o.removed ++ [(member, s)] }

end Outcome

/-- A requirement and the nodes that can meet it; an ambient one is met by the context. -/
structure Requirement where
  selector : Selector
  ambient : Bool
  providers : List Nat
  deriving DecidableEq, Repr

namespace Site

def extensionNodes (s : Site) (self : Nat) : List (Nat × Properties) :=
  s.members.zipIdx.filterMap fun (m, i) =>
    if m.kind = .extension ∧ i + 1 ≠ self then some (i + 1, m.properties) else none

def selectorsOf (s : Site) : Nat → List Selector
  | 0 => s.requires
  | i + 1 => (s.members[i]?.map Member.requires).getD []

def requirement (s : Site) (node : Nat) (selector : Selector) : Requirement :=
  let ambient := metByContext selector s.properties s.runtime
  { selector, ambient
    providers := if ambient then [] else
      ((s.extensionNodes node).filter fun e => selector.accepts e.2).map (·.1) }

def requirements (s : Site) (node : Nat) : List Requirement :=
  (s.selectorsOf node).map (s.requirement node)

def nodes (s : Site) : List Nat :=
  List.range (s.members.length + 1)

end Site

structure Graph where
  requirements : List (List Requirement)
  deriving DecidableEq, Repr

namespace Graph

def ofSite (s : Site) : Graph :=
  ⟨s.nodes.map s.requirements⟩

def requirementsOf (g : Graph) (node : Nat) : List Requirement :=
  (g.requirements[node]?).getD []

/-- The nodes that a node serves, once for each requirement that it can meet. -/
def dependents (g : Graph) (node : Nat) : List Nat :=
  g.requirements.zipIdx.flatMap fun (rs, i) =>
    (rs.filter fun r => r.providers.contains node).map fun _ => i

def isBroken (r : Requirement) (alive : List Nat) : Bool :=
  !r.ambient && !r.providers.any alive.contains

def firstBroken (g : Graph) (node : Nat) (alive : List Nat) : Option Selector :=
  ((g.requirementsOf node).find? fun r => isBroken r alive).map (·.selector)

/-- Looks at the nodes in `agenda` one after the other. One that is taken out puts those that it
served in front, for they may have broken. -/
def settle (g : Graph) (alive agenda : List Nat) (o : Outcome) : Outcome :=
  match agenda with
  | [] => o
  | node :: rest =>
    if h : node ∈ alive then
      match g.firstBroken node alive with
      | none => g.settle alive rest o
      | some s =>
        let alive' := alive.erase node
        have : alive'.length < alive.length := by
          have := List.length_pos_of_mem h
          simp only [alive', List.length_erase_of_mem h]
          omega
        g.settle alive' ((g.dependents node).filter alive'.contains ++ rest) (o.add node s)
    else g.settle alive rest o
termination_by (alive.length, agenda.length)

def resolve (g : Graph) : Outcome :=
  let nodes := List.range g.requirements.length
  g.settle nodes nodes .intact

end Graph

namespace Site

def siblings (s : Site) (skip : Option Nat) : List Properties :=
  s.members.zipIdx.filterMap fun (m, i) =>
    if some i ≠ skip ∧ m.kind = .extension then some m.properties else none

def isIntact (s : Site) : Bool :=
  requirementsMet s.requires (s.siblings none) s.properties s.runtime &&
    s.members.zipIdx.all fun (m, i) =>
      requirementsMet m.requires (s.siblings (some i)) s.properties s.runtime

/-- The outcome; the graph is built only if something is broken. -/
def check (s : Site) : Outcome :=
  if s.isIntact then .intact else (Graph.ofSite s).resolve

end Site

end Reconciliation
