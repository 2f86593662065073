import Reconciliation.Text.Unseen

/-! # Quoted text

A text in double quotes on one line: quotes and backslashes are escaped, line feed, carriage return,
tab and NUL have short escapes, and every other character that does not show is written by its code
point in hexadecimal.
-/
namespace Reconciliation.Text

def hexadecimal (n : Nat) : String :=
  String.ofList (Nat.toDigits 16 n)

def quoteChar (c : Char) : String :=
  if c = '"' then "\\\""
  else if c = '\\' then "\\\\"
  else if c = '\n' then "\\n"
  else if c = '\r' then "\\r"
  else if c = '\t' then "\\t"
  else if c = Char.ofNat 0 then "\\0"
  else if isUnseen c then "\\u\x7b" ++ hexadecimal c.toNat ++ "\x7d"
  else String.singleton c

def quoted (s : String) : String :=
  "\"" ++ String.join (s.toList.map quoteChar) ++ "\""

end Reconciliation.Text
