import Reconciliation.Document.Basic

/-! # Files

What reading a file can lead to, and folders of documents that are read by path. A path is followed
name by name; every place on the way has to be a folder.
-/
namespace Reconciliation.CommandLine

inductive ReadFault where
  | missing
  /-- The path leads to a folder. -/
  | folder
  /-- The path goes on behind a file. -/
  | notFolder
  /-- A name in the path, or the whole path, is too long. -/
  | tooLong
  | other (reason : String)
  deriving DecidableEq, Repr

def ReadFault.text : ReadFault → String
  | missing => "No such file or directory (os error 2)"
  | folder => "Is a directory (os error 21)"
  | notFolder => "Not a directory (os error 20)"
  | tooLong => "File name too long (os error 36)"
  | other reason => reason

/-- What is found under a path; a file without a readable document has none. -/
abbrev Files := String → Except ReadFault (Option Document)

inductive Place where
  /-- In the current folder or below it: the names that lead there, the last one in front. -/
  | inside (way : List String)
  /-- In the root or below it. -/
  | fromRoot (way : List String)
  /-- In a folder that holds the current one. -/
  | outside
  deriving DecidableEq, Repr

inductive Finding where
  | nothing
  | folder
  | file (d : Option Document)

/-- The names in a path. Doubled slashes mean nothing; a slash at the end stands for the folder
itself. -/
def names (path : String) : List String :=
  let parts := path.splitOn "/"
  parts.filter (· != "") ++ if parts.getLast? = some "" then ["."] else []

def standardFolders : List (List String) :=
  [[], ["bin"], ["boot"], ["dev"], ["dev", "shm"], ["etc"], ["home"], ["lib"], ["media"], ["mnt"],
    ["opt"], ["proc"], ["root"], ["run"], ["sbin"], ["srv"], ["sys"], ["tmp"], ["usr"],
    ["usr", "bin"], ["usr", "lib"], ["usr", "local"], ["usr", "share"], ["var"], ["var", "lib"],
    ["var", "log"], ["var", "tmp"]]

/-- Files that every system has. The null device reads as an empty document; the others are no
documents. -/
def standardFiles : List (List String × Option Document) :=
  [(["dev", "null"], some (.table [])), (["etc", "group"], none), (["etc", "hosts"], none),
    (["etc", "passwd"], none)]

def standardFinding (way : List String) : Finding :=
  match standardFiles.lookup way with
  | some d => .file d
  | none => if way ∈ standardFolders then .folder else .nothing

def look (files : List (String × Document)) : Place → Finding
  | .outside => .folder
  | .fromRoot way => standardFinding way.reverse
  | .inside way =>
    match files.find? fun f => names f.1 == way.reverse with
    | some f => .file (some f.2)
    | none =>
      if way.isEmpty || files.any fun f => way.reverse.isPrefixOf (names f.1) then .folder
      else .nothing

def Place.around : Place → Place
  | .inside (_ :: way) => .inside way
  | .inside [] | .outside => .outside
  | .fromRoot way => .fromRoot way.tail

/-- The place that a name leads to. Of what lies around the current folder nothing is known. -/
def Place.enter (p : Place) (name : String) : Option Place :=
  if name = "." then some p
  else if name = ".." then some p.around
  else
    match p with
    | .inside way => some (.inside (name :: way))
    | .fromRoot way => some (.fromRoot (name :: way))
    | .outside => none

def longestName : Nat := 255

def longestPath : Nat := 4095

def follow (look : Place → Finding) : Place → List String → Except ReadFault Finding
  | p, [] => .ok (look p)
  | p, name :: rest =>
    match look p with
    | .nothing => .error .missing
    | .file _ => .error .notFolder
    | .folder =>
      if longestName < name.utf8ByteSize then .error .tooLong
      else
        match p.enter name with
        | some p => follow look p rest
        | none => .error .missing

def folderOf (files : List (String × Document)) : Files := fun path =>
  if longestPath < path.utf8ByteSize then .error .tooLong
  else
    let origin := if path.startsWith "/" then Place.fromRoot [] else Place.inside []
    match follow (look files) origin (names path) with
    | .error e => .error e
    | .ok .nothing => .error .missing
    | .ok .folder => .error .folder
    | .ok (.file d) => .ok d

end Reconciliation.CommandLine
