import Reconciliation.Resolution.Pass

/-! # Shelves

A store has a shelf for each kind of provider, but it takes content onto either shelf for content. A
pass admits and compares providers by their shelves. What becomes of them later it puts down by what
they are.
-/
namespace Reconciliation

/-- Content on a shelf, be it that of its kind or the other one. -/
structure ShelvedContent where
  shelf : ContentKind
  content : Content
  deriving DecidableEq, Repr

def ShelvedContent.ofContent (c : Content) : ShelvedContent :=
  ⟨c.kind, c⟩

inductive Shelved where
  | application (a : Application)
  | content (c : ShelvedContent)
  deriving DecidableEq, Repr

namespace Shelved

def record : Shelved → Record
  | application a => .application a
  | content c => .content c.content

def kind : Shelved → Kind
  | application _ => .application
  | content c => c.shelf.kind

def key (x : Shelved) : Key :=
  ⟨x.kind, x.record.id⟩

/-- The record that the shelf makes of it. -/
def label : Shelved → Record
  | application a => .application a
  | content c => .content { c.content with kind := c.shelf }

def ofRecord : Record → Shelved
  | .application a => application a
  | .content c => content (.ofContent c)

def application? : Shelved → Option Application
  | application a => some a
  | content _ => none

def content? : Shelved → Option ShelvedContent
  | application _ => none
  | content c => some c

end Shelved

structure Shelves where
  changeCount : Nat
  entries : List (Stored Shelved)
  deriving DecidableEq, Repr

namespace Shelves

def ofSnapshot (s : Snapshot) : Shelves :=
  ⟨s.changeCount, s.entries.map (Stored.map Shelved.ofRecord)⟩

def erase (s : Shelves) (k : Key) : Shelves :=
  { s with entries := s.entries.filter fun e => e.record.key != k }

def Keyed (s : Shelves) : Prop :=
  (s.entries.map fun e => e.record.key).Nodup

instance (s : Shelves) : Decidable s.Keyed :=
  inferInstanceAs (Decidable (List.Nodup _))

def InOrder (s : Shelves) : Prop :=
  ∀ e ∈ s.entries, Shelved.ofRecord e.record.record = e.record

instance (s : Shelves) : Decidable s.InOrder :=
  inferInstanceAs (Decidable (∀ _ ∈ _, _))

end Shelves

structure Mishap where
  provider : Shelved
  cause : Cause
  deriving DecidableEq, Repr

namespace Mishap

def key (m : Mishap) : Key :=
  m.provider.key

def failure (m : Mishap) : Failure :=
  ⟨m.provider.record, m.cause⟩

def ofFailure (f : Failure) : Mishap :=
  ⟨.ofRecord f.record, f.cause⟩

end Mishap

namespace ShelfPass

def candidates (builtin : Application) (s : Shelves) : List (Stored Shelved) :=
  s.entries ++ [⟨0, .application builtin⟩]

def rejected (es : List (Stored Shelved)) : List Mishap :=
  es.filterMap fun e => e.record.record.fault.map fun cause => ⟨e.record, cause⟩

def sound (es : List (Stored Shelved)) (runtime : Properties) : List (Stored Shelved) :=
  es.filter fun e => e.record.record.fault.isNone && e.record.record.profile.suits runtime

def sortPool (es : List (Stored Shelved)) : List (Stored Shelved) :=
  es.mergeSort fun a b => (a.record.label.compare b.record.label).isLE

def admitted (es : List (Stored Shelved)) (runtime : Properties) : List (Stored Shelved) :=
  sortPool (sound es runtime)

def shelfContest (rule : Rule) : Contest (Stored Shelved) :=
  (Record.contest rule).through fun e => e.record.label

def afterRule (rule : Rule) (pool : List (Stored Shelved)) : List (Stored Shelved) :=
  (shelfContest rule).survivors pool

/-- The winner is told by its shelf, the loser by what it is. -/
def lostTo (rule : Rule) (pool : List (Stored Shelved)) : List Mishap :=
  ((shelfContest rule).losses pool).map fun l =>
    .ofFailure ⟨l.1.record.record, Record.causeOf rule l.2.record.label⟩

structure Pools where
  admitted : List (Stored Shelved)
  afterPath : List (Stored Shelved)
  afterName : List (Stored Shelved)
  afterDefault : List (Stored Shelved)
  deriving DecidableEq, Repr

def pools (es : List (Stored Shelved)) (runtime : Properties) : Pools :=
  let admitted := admitted es runtime
  let afterPath := afterRule .path admitted
  let afterName := afterRule .name afterPath
  { admitted, afterPath, afterName, afterDefault := afterRule .default afterName }

structure Field where
  applications : List (Stored Application)
  content : List (Stored ShelvedContent)
  deriving DecidableEq, Repr

def bare (c : Stored ShelvedContent) : Stored Content :=
  c.map ShelvedContent.content

def placeOf (c : Stored ShelvedContent) : Key :=
  (Shelved.content c.record).key

structure Verdict where
  members : List (Stored ShelvedContent)
  /-- The verdict on the bare members. -/
  plain : Pass.Verdict
  deriving DecidableEq, Repr

def judge (runtime : Properties) (a : Stored Application)
    (members : List (Stored ShelvedContent)) : Verdict :=
  ⟨members, Pass.judge runtime a (members.map bare)⟩

namespace Verdict

def remaining (v : Verdict) : List (Stored ShelvedContent) :=
  v.members.zipIdx.filterMap fun (c, i) => if v.plain.outcome.isRemoved i then none else some c

def kept (v : Verdict) : List (Stored ShelvedContent) :=
  if v.plain.outcome.application.isSome then [] else v.remaining

def keeps (v : Verdict) (k : Key) : Bool :=
  v.kept.any fun c => placeOf c == k

def detached (v : Verdict) : List (Stored ShelvedContent × Cause) :=
  let name := v.plain.application.record.profile.name
  let broken := v.plain.outcome.removed.filterMap fun r =>
    v.members[r.1]?.map fun c => (c, Cause.unsatisfiedIn r.2 name)
  if v.plain.outcome.application.isSome then
    broken ++ v.remaining.map fun c => (c, .applicationUnavailable c.record.content.kind name)
  else broken

end Verdict

namespace Field

def ofPool (pool : List (Stored Shelved)) : Field :=
  let content := pool.filterMap fun e => e.record.content?.map fun c => ⟨e.revision, c⟩
  { applications := pool.filterMap fun e => e.record.application?.map fun a => ⟨e.revision, a⟩
    content := (content.filter fun c => c.record.shelf == .resource) ++
      content.filter fun c => c.record.shelf == .extension }

def plain (f : Field) : Pass.Field :=
  ⟨f.applications, f.content.map bare⟩

def membersAt (f : Field) (i : Nat) : List (Stored ShelvedContent) :=
  f.content.filter fun c => (f.plain.targets c.record.content).contains i

def otherVerdicts (f : Field) (runtime : Properties) : List Verdict :=
  f.applications.zipIdx.filterMap fun (a, i) =>
    if f.plain.effective == some i then none else some (judge runtime a (f.membersAt i))

def isHomeless (f : Field) (vs : List Verdict) (c : Stored ShelvedContent) : Bool :=
  c.record.content.fallsBack && !(f.plain.targets c.record.content).isEmpty &&
    !vs.any fun v => v.keeps (placeOf c)

def defaultMembers (f : Field) (i : Nat) (vs : List Verdict) : List (Stored ShelvedContent) :=
  f.content.filter fun c =>
    (f.plain.targets c.record.content).contains i || f.isHomeless vs c

def verdicts (f : Field) (runtime : Properties) : List Verdict :=
  let others := f.otherVerdicts runtime
  match f.plain.effective with
  | none => others
  | some i =>
    others ++ (f.applications[i]?.map fun a => judge runtime a (f.defaultMembers i others)).toList

def untaken? (f : Field) (c : Stored ShelvedContent) : Option Failure :=
  if (f.plain.targets c.record.content).isEmpty then
    some ⟨.content c.record.content, match c.record.content.select with
      | some s => .noneMatches s
      | none => .noApplication⟩
  else none

/-- The failure of content that all let go. The last one tells the cause. -/
def letGo? (f : Field) (vs : List Verdict) (c : Stored ShelvedContent) : Option Failure :=
  if (f.plain.targets c.record.content).isEmpty || vs.any fun v => v.keeps (placeOf c) then none
  else
    ((vs.flatMap Verdict.detached).reverse.find? fun d => placeOf d.1 == placeOf c).map
      fun d => ⟨.content c.record.content, d.2⟩

def failures (f : Field) (vs : List Verdict) : List Failure :=
  f.content.filterMap f.untaken? ++ vs.filterMap (fun v => v.plain.failure?) ++
    f.content.filterMap (f.letGo? vs)

end Field

def allMishaps (es : List (Stored Shelved)) (p : Pools) (f : Field) (vs : List Verdict) :
    List Mishap :=
  rejected es ++ lostTo .path p.admitted ++ lostTo .name p.afterPath ++
    lostTo .default p.afterName ++ (f.failures vs).map .ofFailure

/-- Of several failures under one key the last one stands, whosever it is. -/
def outcome (changeCount : Nat) (accepted : List Accepted) (defaultId : Option ProviderId)
    (mishaps : List Mishap) : Resolution :=
  let failed (k : Kind) := Pass.sortFailures
    (((Pass.lastOfEach Mishap.key mishaps).filter fun m => m.provider.kind == k).map
      Mishap.failure)
  { Pass.outcome changeCount accepted defaultId [] with
    failedApplications := failed .application
    failedResources := failed .resource
    failedExtensions := failed .extension }

end ShelfPass

namespace Reconciler

def runShelves (r : Reconciler) (s : Shelves) (runtime : Properties) : Resolution :=
  let es := ShelfPass.candidates r.builtin s
  let pools := ShelfPass.pools es runtime
  let field := ShelfPass.Field.ofPool pools.afterDefault
  let verdicts := field.verdicts runtime
  ShelfPass.outcome s.changeCount (verdicts.filterMap fun v => v.plain.accepted?)
    ((field.plain.effective.bind fun i => field.applications[i]?).map fun a => a.record.profile.id)
    (ShelfPass.allMishaps es pools field verdicts)

end Reconciler

end Reconciliation
