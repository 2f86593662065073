import Reconciliation.Document.Basic

/-! # Printing documents

A document is printed on one line without blanks, or with two blanks of indentation for each level
and one entry to a line. A list or table without entries is closed at once either way.
-/
namespace Reconciliation.Document

def escapeCode (c : Char) : String :=
  "\\u00" ++ (if c.toNat < 16 then "0" else "") ++ String.ofList (Nat.toDigits 16 c.toNat)

def escape (c : Char) : String :=
  if c = '"' then "\\\""
  else if c = '\\' then "\\\\"
  else if c = '\n' then "\\n"
  else if c = '\r' then "\\r"
  else if c = '\t' then "\\t"
  else if c = '\x08' then "\\b"
  else if c = '\x0c' then "\\f"
  else if c.toNat < 32 then escapeCode c
  else String.singleton c

def quotation (s : String) : String :=
  "\"" ++ String.join (s.toList.map escape) ++ "\""

mutual

def compact : Document → String
  | null => "null"
  | flag b => Value.flagText b
  | integer n => toString n
  | fraction s => s
  | text s => quotation s
  | list items => "[" ++ ",".intercalate (compactItems items) ++ "]"
  | table fields => "\x7b" ++ ",".intercalate (compactFields fields) ++ "\x7d"

def compactItems : List Document → List String
  | [] => []
  | d :: rest => d.compact :: compactItems rest

def compactFields : List (String × Document) → List String
  | [] => []
  | (name, d) :: rest => (quotation name ++ ":" ++ d.compact) :: compactFields rest

end

def block (opening closing : String) (depth : Nat) (entries : List String) : String :=
  let margin (n : Nat) := "\n" ++ String.ofList (List.replicate (2 * n) ' ')
  if entries.isEmpty then opening ++ closing
  else
    opening ++ ",".intercalate (entries.map fun e => margin (depth + 1) ++ e) ++
      margin depth ++ closing

mutual

def indented (depth : Nat) : Document → String
  | list items => block "[" "]" depth (indentedItems (depth + 1) items)
  | table fields => block "\x7b" "\x7d" depth (indentedFields (depth + 1) fields)
  | null => "null"
  | flag b => Value.flagText b
  | integer n => toString n
  | fraction s => s
  | text s => quotation s

def indentedItems (depth : Nat) : List Document → List String
  | [] => []
  | d :: rest => d.indented depth :: indentedItems depth rest

def indentedFields (depth : Nat) : List (String × Document) → List String
  | [] => []
  | (name, d) :: rest =>
    (quotation name ++ ": " ++ d.indented depth) :: indentedFields depth rest

end

def pretty (d : Document) : String :=
  d.indented 0

end Reconciliation.Document
