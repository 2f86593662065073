import Reconciliation.CommandLine.Folder
import Reconciliation.CommandLine.Help
import Reconciliation.Config
import Reconciliation.Deployment.Memory
import Reconciliation.Document.Printer
import Reconciliation.Document.Status
import Reconciliation.Manifest
import Reconciliation.Workbench

/-! # Execution

What an invocation leads to. Both commands print a status: `check` resolves the manifest without a
deployment, `run` makes a pass with deployments. The configuration is read before the manifest.
-/
namespace Reconciliation.CommandLine

inductive Fault where
  | unreadableConfig (path : String) (why : ReadFault)
  | refusedConfig (e : ConfigError)
  | unreadableManifest (path : String)
  | malformedManifest (path : String)
  deriving DecidableEq, Repr

def Fault.message : Fault → String
  | unreadableConfig path why => s!"I/O error reading {path}: {why.text}"
  | refusedConfig e => e.message
  | unreadableManifest path => s!"reading manifest {path}"
  | malformedManifest path => s!"parsing manifest {path}"

def readConfig (files : Files) : Option String → Except Fault Config
  | none => .ok .default
  | some path =>
    match files path with
    | .error why => .error (.unreadableConfig path why)
    | .ok none => .error (.refusedConfig .malformed)
    | .ok (some d) => (Config.ofDocument d).mapError .refusedConfig

def readManifest (files : Files) (path : String) : Except Fault Manifest :=
  match files path with
  | .error _ => .error (.unreadableManifest path)
  | .ok d =>
    match d.bind Manifest.ofDocument? with
    | none => .error (.malformedManifest path)
    | some m => .ok m

/-- The status after a manifest has been resolved, without a deployment. The built-in default
application comes after the manifest. -/
def checkStatus (c : Config) (m : Manifest) : Status :=
  let store := m.registrations.foldl (fun s r => (s.register r).1) (Store.empty 1)
  let reconciler : Reconciler := ⟨.builtin (.generated store.nextToken)⟩
  let resolution := reconciler.run store.snapshot c.initialRuntime
  .ofResolution resolution resolution.changeCount 1

/-- The workbench when a manifest has been submitted. The built-in default application comes before
the manifest. -/
def submitted (c : Config) (m : Manifest) : Workbench MemoryContainer :=
  m.registrations.foldl (fun w r => (w.mutate (.register r)).1)
    (.start c.initialRuntime .empty)

/-- The status after a manifest has been submitted and the first pass is over. -/
def runStatus (c : Config) (m : Manifest) : Status :=
  ((submitted c m).pass MemoryContainer.respond).2.1

def status (c : Command) (config : Config) (m : Manifest) : Status :=
  match c with
  | .check => checkStatus config m
  | .run => runStatus config m

structure Ending where
  code : Nat
  output : String
  /-- What went wrong. -/
  fault : Option Fault
  deriving DecidableEq, Repr

def Ending.ofStatus (s : Status) (compact : Bool) : Ending :=
  let d := s.document
  ⟨0, (if compact then d.compact else d.pretty) ++ "\n", none⟩

/-- Help and the version are asked for; any other refusal is the fault of the words. -/
def Ending.ofRefusal : Refusal → Ending
  | .help topic => ⟨0, topic.explanation, none⟩
  | .version => ⟨0, "switchyard 0.3.0\n", none⟩
  | _ => ⟨2, "", none⟩

def perform (i : Invocation) (files : Files) : Except Fault Status := do
  let config ← readConfig files i.config
  let manifest ← readManifest files i.manifest
  return status i.command config manifest

def execute (words : List String) (files : Files) : Ending :=
  match read words with
  | .error r => .ofRefusal r
  | .ok i =>
    match perform i files with
    | .ok s => .ofStatus s i.compact
    | .error e => ⟨1, "", some e⟩

end Reconciliation.CommandLine
