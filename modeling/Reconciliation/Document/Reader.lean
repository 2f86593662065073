import Reconciliation.Document.Basic

/-! # Reading documents

A number is a whole number when it is written without a point and without an exponent; a zero with a
sign counts as a fraction.
-/
namespace Reconciliation.Document

def isGap (c : Char) : Bool :=
  c == ' ' || c == '\t' || c == '\n' || c == '\r'

def skipGaps (cs : List Char) : List Char :=
  cs.dropWhile isGap

def take? (word : String) (cs : List Char) : Option (List Char) :=
  if word.toList.isPrefixOf cs then some (cs.drop word.length) else none

def hexValue? (c : Char) : Option Nat :=
  if '0' ≤ c ∧ c ≤ '9' then some (c.toNat - '0'.toNat)
  else if 'a' ≤ c ∧ c ≤ 'f' then some (c.toNat - 'a'.toNat + 10)
  else if 'A' ≤ c ∧ c ≤ 'F' then some (c.toNat - 'A'.toNat + 10)
  else none

def readUnit? : List Char → Option (Nat × List Char)
  | a :: b :: c :: d :: cs => do
    let a ← hexValue? a
    let b ← hexValue? b
    let c ← hexValue? c
    let d ← hexValue? d
    return (((a * 16 + b) * 16 + c) * 16 + d, cs)
  | _ => none

/-- A character by its code; one beyond the first plane takes two units. Half of such a pair does not
stand alone. -/
def readCode? (cs : List Char) : Option (Char × List Char) := do
  let (unit, cs) ← readUnit? cs
  if unit < 0xD800 ∨ 0xE000 ≤ unit then return (Char.ofNat unit, cs)
  else if 0xDC00 ≤ unit then none
  else
    let (second, cs) ← readUnit? (← take? "\\u" cs)
    if 0xDC00 ≤ second ∧ second < 0xE000 then
      return (Char.ofNat (0x10000 + (unit - 0xD800) * 0x400 + (second - 0xDC00)), cs)
    else none

def readEscape? : List Char → Option (Char × List Char)
  | '"' :: cs => some ('"', cs)
  | '\\' :: cs => some ('\\', cs)
  | '/' :: cs => some ('/', cs)
  | 'n' :: cs => some ('\n', cs)
  | 'r' :: cs => some ('\r', cs)
  | 't' :: cs => some ('\t', cs)
  | 'b' :: cs => some ('\x08', cs)
  | 'f' :: cs => some ('\x0c', cs)
  | 'u' :: cs => readCode? cs
  | _ => none

/-- The rest of a text, up to its closing quote; `acc` is what was read before, last character
first. -/
def readQuoted? : Nat → List Char → List Char → Option (String × List Char)
  | 0, _, _ => none
  | n + 1, acc, cs =>
    match cs with
    | '"' :: cs => some (String.ofList acc.reverse, cs)
    | '\\' :: cs => do
      let (c, cs) ← readEscape? cs
      readQuoted? n (c :: acc) cs
    | c :: cs => if c.toNat < 32 then none else readQuoted? n (c :: acc) cs
    | [] => none

def readRun? (cs : List Char) : Option (List Char × List Char) :=
  match cs.span Char.isDigit with
  | ([], _) => none
  | r => some r

/-- Digits without a zero before others. -/
def readWhole? (cs : List Char) : Option (List Char × List Char) := do
  let (digits, rest) ← readRun? cs
  match digits with
  | '0' :: _ :: _ => none
  | _ => return (digits, rest)

def readPoint? : List Char → Option (List Char × List Char)
  | '.' :: cs => (readRun? cs).map fun r => ('.' :: r.1, r.2)
  | cs => some ([], cs)

def readPower? : List Char → Option (List Char × List Char)
  | '+' :: cs => (readRun? cs).map fun r => ('+' :: r.1, r.2)
  | '-' :: cs => (readRun? cs).map fun r => ('-' :: r.1, r.2)
  | cs => readRun? cs

def readExponent? : List Char → Option (List Char × List Char)
  | 'e' :: cs => (readPower? cs).map fun r => ('e' :: r.1, r.2)
  | 'E' :: cs => (readPower? cs).map fun r => ('E' :: r.1, r.2)
  | cs => some ([], cs)

def readNumber? (negative : Bool) (cs : List Char) : Option (Document × List Char) := do
  let (whole, cs) ← readWhole? cs
  let (point, cs) ← readPoint? cs
  let (exponent, cs) ← readExponent? cs
  if point.isEmpty ∧ exponent.isEmpty ∧ ¬ (negative ∧ whole = ['0']) then
    let n ← Text.readNatural? whole
    return (integer (if negative then -Int.ofNat n else Int.ofNat n), cs)
  else
    let sign := if negative then "-" else ""
    return (fraction (sign ++ String.ofList (whole ++ point ++ exponent)), cs)

mutual

/-- Reads one document. Every turn takes a character, so their number is room enough. -/
def readDocument? : Nat → List Char → Option (Document × List Char)
  | 0, _ => none
  | n + 1, cs =>
    match skipGaps cs with
    | '"' :: cs => (readQuoted? (cs.length + 1) [] cs).map fun r => (text r.1, r.2)
    | '[' :: cs =>
      match skipGaps cs with
      | ']' :: cs => some (list [], cs)
      | cs => (readItems? n cs).map fun r => (list r.1, r.2)
    | '\x7b' :: cs =>
      match skipGaps cs with
      | '\x7d' :: cs => some (table [], cs)
      | cs => (readFields? n cs).map fun r => (table r.1, r.2)
    | 'n' :: cs => (take? "ull" cs).map fun cs => (null, cs)
    | 't' :: cs => (take? "rue" cs).map fun cs => (flag true, cs)
    | 'f' :: cs => (take? "alse" cs).map fun cs => (flag false, cs)
    | '-' :: cs => readNumber? true cs
    | cs => readNumber? false cs

def readItems? : Nat → List Char → Option (List Document × List Char)
  | 0, _ => none
  | n + 1, cs => do
    let (d, cs) ← readDocument? n cs
    match skipGaps cs with
    | ',' :: cs =>
      let (ds, cs) ← readItems? n cs
      return (d :: ds, cs)
    | ']' :: cs => return ([d], cs)
    | _ => none

def readFields? : Nat → List Char → Option (List (String × Document) × List Char)
  | 0, _ => none
  | n + 1, cs => do
    match skipGaps cs with
    | '"' :: cs =>
      let (name, cs) ← readQuoted? (cs.length + 1) [] cs
      let (d, cs) ← readDocument? n (← take? ":" (skipGaps cs))
      match skipGaps cs with
      | ',' :: cs =>
        let (fs, cs) ← readFields? n cs
        return ((name, d) :: fs, cs)
      | '\x7d' :: cs => return ([(name, d)], cs)
      | _ => none
    | _ => none

end

def read? (s : String) : Option Document := do
  let (d, cs) ← readDocument? (s.length + 1) s.toList
  if (skipGaps cs).isEmpty then return d else none

end Reconciliation.Document
