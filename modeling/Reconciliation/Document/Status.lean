import Reconciliation.Document.Basic
import Reconciliation.Status

/-! # The status as a document

Fields stand in the order in which the status has them; a detail without text is left out. Reading
passes over fields that it does not know.
-/
namespace Reconciliation

namespace ApplicationStatus

def document (a : ApplicationStatus) : Document :=
  .table [
    ("name", .text a.name),
    ("base", .text a.base),
    ("id", .text a.id),
    ("resources", .list (a.resources.map .text)),
    ("extensions", .list (a.extensions.map .text))]

def fieldNames : List String :=
  ["name", "base", "id", "resources", "extensions"]

def ofDocument? (d : Document) : Option ApplicationStatus := do
  let fields ← d.fields? fieldNames
  let name ← (← fields.lookup "name").text?
  let base ← (← fields.lookup "base").text?
  let id ← (← fields.lookup "id").text?
  let resources ← (← fields.lookup "resources").texts?
  let extensions ← (← fields.lookup "extensions").texts?
  return { name, base, id, resources, extensions }

end ApplicationStatus

namespace FailedStatus

def document (f : FailedStatus) : Document :=
  .table ([
    ("name", .text f.name),
    ("id", .text f.id),
    ("reason", .text f.reason),
    ("code", .integer f.code)] ++
    if f.detail.isEmpty then [] else [("detail", .text f.detail)])

def fieldNames : List String :=
  ["name", "id", "reason", "code", "detail"]

def ofDocument? (d : Document) : Option FailedStatus := do
  let fields ← d.fields? fieldNames
  let name ← (← fields.lookup "name").text?
  let id ← (← fields.lookup "id").text?
  let reason ← (← fields.lookup "reason").text?
  let code ← (← fields.lookup "code").natural? 8
  let detail ← match fields.lookup "detail" with
    | some d => d.text?
    | none => some ""
  return { name, id, reason, code, detail }

end FailedStatus

namespace Status

def document (s : Status) : Document :=
  .table [
    ("change_count", .integer s.changeCount),
    ("pass", .integer s.pass),
    ("default_application", (s.defaultApplication.map .text).getD .null),
    ("applications", .list (s.applications.map ApplicationStatus.document)),
    ("failed_applications", .list (s.failedApplications.map FailedStatus.document)),
    ("failed_resources", .list (s.failedResources.map FailedStatus.document)),
    ("failed_extensions", .list (s.failedExtensions.map FailedStatus.document))]

def fieldNames : List String :=
  ["change_count", "pass", "default_application", "applications", "failed_applications",
    "failed_resources", "failed_extensions"]

def readAll? {α : Type} (read? : Document → Option α) : Document → Option (List α)
  | .list items => items.mapM read?
  | _ => none

def ofDocument? (d : Document) : Option Status := do
  let fields ← d.fields? fieldNames
  let changeCount ← (← fields.lookup "change_count").natural? 64
  let pass ← (← fields.lookup "pass").natural? 64
  let defaultApplication ← match fields.lookup "default_application" with
    | none | some .null => some none
    | some d => d.text?.map some
  let applications ← readAll? ApplicationStatus.ofDocument? (← fields.lookup "applications")
  let failedApplications ← readAll? FailedStatus.ofDocument? (← fields.lookup "failed_applications")
  let failedResources ← readAll? FailedStatus.ofDocument? (← fields.lookup "failed_resources")
  let failedExtensions ← readAll? FailedStatus.ofDocument? (← fields.lookup "failed_extensions")
  return { changeCount, pass, defaultApplication, applications, failedApplications,
           failedResources, failedExtensions }

end Status

end Reconciliation
