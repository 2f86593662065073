import Reconciliation.Text.Blank

/-! # Base paths

An application is mounted at a base path: it begins with a slash and ends with one only at the root.
A trailing wildcard is dropped.
-/
namespace Reconciliation.BasePath

def dropWildcard (cs : List Char) : List Char :=
  match cs.reverse with
  | '*' :: '/' :: rest => rest.reverse
  | ['*'] => []
  | _ => cs

def dropSlashes (cs : List Char) : List Char :=
  (cs.reverse.dropWhile (· == '/')).reverse

def addSlash : List Char → List Char
  | '/' :: cs => '/' :: cs
  | cs => '/' :: cs

def normalizeChars (cs : List Char) : List Char :=
  addSlash (dropSlashes (dropWildcard (Text.trimChars cs)))

def normalize (raw : String) : String :=
  String.ofList (normalizeChars raw.toList)

end Reconciliation.BasePath
