import Reconciliation.CommandLine.Execution
import Reconciliation.Document.Reader

/-! # The program

Reads the files that the arguments name, and writes what the command has to say.
-/
namespace Reconciliation.CommandLine

/-- A folder can be opened but not read, and so the fault has no name; a path that goes on behind a
file cannot be opened. -/
def ReadFault.ofError : IO.Error → ReadFault
  | .noFileOrDirectory .. => .missing
  | .inappropriateType none .. => .folder
  | .inappropriateType (some _) .. => .notFolder
  | .invalidArgument .. => .tooLong
  | e => .other (toString e)

def readFile (path : String) : IO (Except ReadFault (Option Document)) := do
  try
    return .ok (Document.read? (← IO.FS.readFile path))
  catch e =>
    return .error (.ofError e)

def filesOf (i : Invocation) : IO Files := do
  let manifest ← readFile i.manifest
  let config ← i.config.mapM readFile
  return fun path => if i.config = some path then config.getD manifest else manifest

def complaint (words : List String) (e : Ending) : Option String :=
  match e.fault with
  | some f => some s!"Error: {f.message}\n"
  | none => if e.code = 0 then none else
    match read words with
    | .error r => some s!"error: {r.text}\n\n{Topic.program.explanation}"
    | .ok _ => none

end Reconciliation.CommandLine

open Reconciliation.CommandLine in
def main (words : List String) : IO UInt32 := do
  let files ← match read words with
    | .ok i => filesOf i
    | .error _ => pure fun _ => .error .missing
  let ending := execute words files
  IO.print ending.output
  if let some text := complaint words ending then IO.eprint text
  return ending.code.toUInt32
