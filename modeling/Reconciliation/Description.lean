import Reconciliation.Deployment.Basic
import Reconciliation.Engine.Basic
import Reconciliation.Runtime
import Reconciliation.Store.Basic
import Reconciliation.Text.Duration
import Reconciliation.Text.Quoted

/-! # Descriptions

One-line texts that show what a value consists of, for people who look for a fault. Optional parts
are wrapped, texts are quoted, and `..` stands for parts that are left out.
-/
namespace Reconciliation

/-- An opening brace; in an interpolated text it would begin a hole. -/
def braced (body : String) : String :=
  "\x7b " ++ body ++ " \x7d"

def Selector.describe (s : Selector) : String :=
  "Selector(" ++ Text.quoted s.source ++ ")"

def ProviderId.describe : ProviderId → String
  | registered n => "Registered(" ++ Text.decimal n ++ ")"
  | generated t => s!"Generated({t})"

def ContentKind.describe : ContentKind → String
  | resource => "Resource"
  | extension => "Extension"

def Content.describe (c : Content) : String :=
  let select := match c.select with
    | some s => "Some(" ++ s.describe ++ ")"
    | none => "None"
  "ContentProvider " ++ braced (s!"kind: {c.kind.describe}, id: {c.profile.id.describe}, " ++
    "name: " ++ Text.quoted c.profile.name ++ s!", priority: {c.profile.priority}, " ++
    s!"application_select: {select}, ..")

def Value.describe : Value → String
  | flag b => s!"Bool({flagText b})"
  | integer n => s!"Integer({Text.decimal n})"
  | text s => "String(" ++ Text.quoted s ++ ")"
  | list items => "List([" ++ ", ".intercalate (items.map Text.quoted) ++ "])"

def Properties.describe (p : Properties) : String :=
  let entries := p.entries.map fun e => Text.quoted e.1 ++ ": " ++ e.2.describe
  "Properties(\x7b" ++ ", ".intercalate entries ++ "\x7d)"

def Runtime.describe (r : Runtime) : String :=
  "RuntimeProperties(" ++ r.properties.describe ++ ")"

def Store.describe (s : Store) : String :=
  "ProviderStore " ++ braced s!"change_count: {s.changeCount}, providers: {s.snapshot.size}, .."

def LiveMap.describe (live : LiveMap) : String :=
  "DeploymentDriver " ++ braced ("live: [" ++ ", ".intercalate (live.keys.map Text.quoted) ++ "]")

def Phase.describe : Phase → String
  | idle => "Idle"
  | queued => "Queued"
  | running dirty => "Running " ++ braced s!"dirty: {Value.flagText dirty}"
  | closed => "Closed"

def Debouncer.describe (d : Debouncer) : String :=
  "Debouncer " ++
    braced s!"interval: {Text.duration d.interval}, phase: {d.phase.describe}"

/-- A ticket shows the debouncer that it came from. -/
def Debouncer.describeTicket (d : Debouncer) (serial : Nat) : String :=
  let shared := braced s!"interval: {Text.duration d.interval}, .."
  "Ticket " ++ braced s!"shared: Shared {shared}, serial: {serial}"

def Engine.describe (e : Engine) : String :=
  let debouncer := { e.debouncer with interval := e.config.debounce }
  "Whiteboard " ++ braced ("name: " ++ Text.quoted e.config.name ++
    s!", debouncer: {debouncer.describe}, closed: {Value.flagText e.closed}, ..")

end Reconciliation
