import Reconciliation.Resolution.Attachment
import Reconciliation.Resolution.Basic
import Reconciliation.Resolution.Contest
import Reconciliation.Resolution.Dependency

/-! # A pass

A pass reads a snapshot and the runtime properties. It drops what is faulty or meant for another
runtime, lets the three rules decide in turn, attaches content to the applications that are left and
takes out what lacks its requirements. The application that acts as the default is settled last, for
content without a selector of its own goes there when all others let it go.
-/
namespace Reconciliation

/-- The application that is there without a registration. -/
structure Reconciler where
  builtin : Application
  deriving DecidableEq, Repr

namespace Pass

/-- What competes: every stored record, and the built-in default application. -/
def candidates (builtin : Application) (s : Snapshot) : List (Stored Record) :=
  s.entries ++ [⟨0, .application builtin⟩]

def rejected (es : List (Stored Record)) : List Failure :=
  es.filterMap fun e => e.record.fault.map fun cause => ⟨e.record, cause⟩

def sortPool (es : List (Stored Record)) : List (Stored Record) :=
  es.mergeSort fun a b => (a.record.compare b.record).isLE

/-- Sound providers that suit the runtime, in the order of providers. -/
def admitted (es : List (Stored Record)) (runtime : Properties) : List (Stored Record) :=
  sortPool (es.filter fun e => e.record.fault.isNone && e.record.profile.suits runtime)

def storedContest (rule : Rule) : Contest (Stored Record) :=
  (Record.contest rule).through Stored.record

def afterRule (rule : Rule) (pool : List (Stored Record)) : List (Stored Record) :=
  (storedContest rule).survivors pool

def lostTo (rule : Rule) (pool : List (Stored Record)) : List Failure :=
  ((storedContest rule).losses pool).map fun l =>
    ⟨l.1.record, Record.causeOf rule l.2.record⟩

/-- The surviving applications and content, each in the order of providers. Resources stand before
extensions. -/
structure Field where
  applications : List (Stored Application)
  content : List (Stored Content)
  deriving DecidableEq, Repr

def Field.ofPool (pool : List (Stored Record)) : Field :=
  let content := pool.filterMap fun e => e.record.content?.map fun c => Stored.mk e.revision c
  { applications := pool.filterMap fun e => e.record.application?.map fun a => ⟨e.revision, a⟩
    content := (content.filter fun c => c.record.kind == .resource) ++
      content.filter fun c => c.record.kind == .extension }

namespace Field

/-- The place of the application that acts as the default: a default one, or else a stand-in. -/
def effective (f : Field) : Option Nat :=
  (f.applications.findIdx? fun a => a.record.isDefault).or
    (f.applications.findIdx? fun a => a.record.standsIn)

def targets (f : Field) (c : Content) : List Nat :=
  let own := f.applications.zipIdx.filterMap fun (a, i) =>
    if c.attachesTo a.record (f.effective == some i) then some i else none
  if own.isEmpty && c.fallsBack then f.effective.toList else own

end Field

structure Verdict where
  application : Stored Application
  members : List (Stored Content)
  outcome : Outcome
  deriving DecidableEq, Repr

def memberOf (c : Content) : Member :=
  ⟨c.kind, c.profile.properties, c.profile.requires⟩

def judge (runtime : Properties) (a : Stored Application) (members : List (Stored Content)) :
    Verdict :=
  { application := a
    members
    outcome := Site.check
      { properties := a.record.profile.properties
        requires := a.record.profile.requires
        members := members.map fun c => memberOf c.record
        runtime } }

namespace Verdict

def remaining (v : Verdict) : List (Stored Content) :=
  v.members.zipIdx.filterMap fun (c, i) => if v.outcome.isRemoved i then none else some c

/-- The members that the application keeps: none if it is broken itself. -/
def kept (v : Verdict) : List (Stored Content) :=
  if v.outcome.application.isSome then [] else v.remaining

def keeps (v : Verdict) (k : Key) : Bool :=
  v.kept.any fun c => (Record.content c.record).key == k

def accepted? (v : Verdict) : Option Accepted :=
  if v.outcome.application.isSome then none
  else some
    { application := v.application
      resources := v.kept.filter fun c => c.record.kind == .resource
      extensions := v.kept.filter fun c => c.record.kind == .extension }

def failure? (v : Verdict) : Option Failure :=
  v.outcome.application.map fun s => ⟨.application v.application.record, .unsatisfied s⟩

/-- The members that the application lets go, each with the cause, in the order in which it does:
first those with a broken requirement, then the others if the application is broken. -/
def detached (v : Verdict) : List (Stored Content × Cause) :=
  let name := v.application.record.profile.name
  let broken := v.outcome.removed.filterMap fun (i, s) =>
    v.members[i]?.map fun c => (c, Cause.unsatisfiedIn s name)
  if v.outcome.application.isSome then
    broken ++ v.remaining.map fun c => (c, .applicationUnavailable c.record.kind name)
  else broken

end Verdict

namespace Field

def membersAt (f : Field) (i : Nat) : List (Stored Content) :=
  f.content.filter fun c => (f.targets c.record).contains i

def otherVerdicts (f : Field) (runtime : Properties) : List Verdict :=
  f.applications.zipIdx.filterMap fun (a, i) =>
    if f.effective == some i then none else some (judge runtime a (f.membersAt i))

/-- Whether content that was attached elsewhere has been let go by all, and may fall back. -/
def isHomeless (f : Field) (vs : List Verdict) (c : Content) : Bool :=
  c.fallsBack && !(f.targets c).isEmpty && !vs.any fun v => v.keeps (Record.content c).key

/-- Members of the effective default: content attached to it, and content that is left homeless. -/
def defaultMembers (f : Field) (i : Nat) (vs : List Verdict) : List (Stored Content) :=
  f.content.filter fun c =>
    (f.targets c.record).contains i || f.isHomeless vs c.record

def verdicts (f : Field) (runtime : Properties) : List Verdict :=
  let others := f.otherVerdicts runtime
  match f.effective with
  | none => others
  | some i =>
    others ++ (f.applications[i]?.map fun a => judge runtime a (f.defaultMembers i others)).toList

/-- Why content that nobody keeps is not deployed: no application took it, or the last one to let it
go tells the cause. -/
def contentFailure? (f : Field) (vs : List Verdict) (c : Stored Content) : Option Failure :=
  let r := Record.content c.record
  if (f.targets c.record).isEmpty then
    some ⟨r, match c.record.select with
      | some s => .noneMatches s
      | none => .noApplication⟩
  else if vs.any fun v => v.keeps r.key then none
  else
    ((vs.flatMap Verdict.detached).reverse.find? fun d => (Record.content d.1.record).key == r.key).map
      fun d => ⟨r, d.2⟩

def failures (f : Field) (vs : List Verdict) : List Failure :=
  vs.filterMap Verdict.failure? ++ f.content.filterMap (f.contentFailure? vs)

end Field

def lastOfEach {α κ : Type} [BEq κ] (key : α → κ) : List α → List α
  | [] => []
  | x :: xs => if xs.any fun y => key y == key x then lastOfEach key xs
    else x :: lastOfEach key xs

def lastOfEachKey (fs : List Failure) : List Failure :=
  lastOfEach (fun f => f.record.key) fs

def sortFailures (fs : List Failure) : List Failure :=
  fs.mergeSort fun a b => (a.record.profile.compare b.record.profile).isLE

def outcome (changeCount : Nat) (accepted : List Accepted) (defaultId : Option ProviderId)
    (failures : List Failure) : Resolution :=
  let failed (k : Kind) := sortFailures (failures.filter fun f => f.record.kind == k)
  { changeCount
    applications := accepted.mergeSort fun a b => decide (a.base ≤ b.base)
    defaultApplication := defaultId.filter fun id => accepted.any fun a => a.id == id
    failedApplications := failed .application
    failedResources := failed .resource
    failedExtensions := failed .extension }

structure Pools where
  admitted : List (Stored Record)
  afterPath : List (Stored Record)
  afterName : List (Stored Record)
  afterDefault : List (Stored Record)
  deriving DecidableEq, Repr

def pools (es : List (Stored Record)) (runtime : Properties) : Pools :=
  let admitted := admitted es runtime
  let afterPath := afterRule .path admitted
  let afterName := afterRule .name afterPath
  { admitted, afterPath, afterName, afterDefault := afterRule .default afterName }

def allFailures (es : List (Stored Record)) (p : Pools) (f : Field) (vs : List Verdict) :
    List Failure :=
  rejected es ++ lostTo .path p.admitted ++ lostTo .name p.afterPath ++
    lostTo .default p.afterName ++ f.failures vs

end Pass

namespace Reconciler

/-- A pass in which the failures are handed over in the order that `drain` gives them. -/
def runDraining (drain : List Failure → List Failure) (r : Reconciler) (s : Snapshot)
    (runtime : Properties) : Resolution :=
  let es := Pass.candidates r.builtin s
  let pools := Pass.pools es runtime
  let field := Pass.Field.ofPool pools.afterDefault
  let verdicts := field.verdicts runtime
  Pass.outcome s.changeCount (verdicts.filterMap Pass.Verdict.accepted?)
    ((field.effective.bind fun i => field.applications[i]?).map fun a => a.record.profile.id)
    (drain (Pass.lastOfEachKey (Pass.allFailures es pools field verdicts)))

/-- The deployments that a snapshot calls for under the given runtime properties. -/
def run (r : Reconciler) (s : Snapshot) (runtime : Properties) : Resolution :=
  r.runDraining id s runtime

end Reconciler

end Reconciliation
