import Reconciliation.Document.Basic
import Reconciliation.Provider.Keys

/-! # Configuration

A document may leave out any field, but not hold any other, and each field has its type. Only then
are the values checked, in the order name, interval, timeout.
-/
namespace Reconciliation

structure Config where
  name : String
  /-- How long a queued pass waits, in milliseconds. -/
  debounce : Nat
  /-- How long a shutdown waits, in milliseconds. -/
  shutdownTimeout : Nat
  runtime : Properties
  deriving DecidableEq, Repr

inductive ConfigError where
  /-- The document does not have the form of a configuration. -/
  | malformed
  | invalid (field reason : String)
  deriving DecidableEq, Repr

def ConfigError.message : ConfigError → String
  | malformed => "not a configuration"
  | invalid field reason => "invalid value for `" ++ field ++ "`: " ++ reason

namespace Config

def default : Config :=
  { name := "switchyard", debounce := 50, shutdownTimeout := 5000, runtime := .empty }

def readField? (c : Config) (field : String × Document) : Option Config :=
  match field.1 with
  | "name" => field.2.text?.map fun s => { c with name := s }
  | "debounce_ms" => (field.2.natural? 64).map fun n => { c with debounce := n }
  | "shutdown_timeout_ms" => (field.2.natural? 64).map fun n => { c with shutdownTimeout := n }
  | "runtime_properties" => field.2.properties?.map fun p => { c with runtime := p }
  | _ => none

def fieldNames : List String :=
  ["name", "debounce_ms", "shutdown_timeout_ms", "runtime_properties"]

def read? (d : Document) : Option Config := do
  (← d.fields? fieldNames).foldlM readField? default

def validate (c : Config) : Except ConfigError Config :=
  if (Text.trim c.name).isEmpty then .error (.invalid "name" "must not be empty")
  else if c.debounce = 0 then .error (.invalid "debounce_ms" "must be at least 1")
  else if c.shutdownTimeout = 0 then .error (.invalid "shutdown_timeout_ms" "must be at least 1")
  else .ok c

def ofDocument (d : Document) : Except ConfigError Config :=
  match read? d with
  | some c => c.validate
  | none => .error .malformed

/-- The runtime properties to start with; the name goes in unless it is set already. -/
def initialRuntime (c : Config) : Properties :=
  if c.runtime.contains Keys.name then c.runtime else c.runtime.insert Keys.name (.text c.name)

end Config

end Reconciliation
