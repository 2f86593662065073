import Reconciliation.Selector.Basic

/-! # Reading selectors

A descent over the characters that are left. A failure carries the text from the offending place on,
so its position is the size of what was read before.
-/
namespace Reconciliation

namespace Selector

inductive Cause where
  | expected (wanted found : Char)
  | expectedAtEnd (wanted : Char)
  | trailing (found : Char)
  | noNested
  | missingName
  | noOperator (found : Char) (name : String)
  | endOfInput
  | openInValue
  | danglingEscape
  | unterminated
  deriving DecidableEq, Repr

def Cause.detail : Cause → String
  | expected wanted found => s!"expected '{wanted}', found '{found}'"
  | expectedAtEnd wanted => s!"expected '{wanted}', found end of input"
  | trailing found => s!"expected end of input, found '{found}'"
  | noNested => "expected at least one nested filter"
  | missingName => "missing attribute name"
  | noOperator found name => s!"unexpected '{found}' after attribute '{name}'"
  | endOfInput => "unexpected end of input"
  | openInValue => "unescaped '(' in value"
  | danglingEscape => "dangling escape at end of input"
  | unterminated => "unterminated item, expected ')'"

structure Failure where
  cause : Cause
  rest : List Char
  deriving DecidableEq, Repr

def skipBlanks (cs : List Char) : List Char :=
  Text.trimStart cs

def take (wanted : Char) : List Char → Except Failure (List Char)
  | [] => .error ⟨.expectedAtEnd wanted, []⟩
  | c :: cs => if c = wanted then .ok cs else .error ⟨.expected wanted c, c :: cs⟩

def endsName (c : Char) : Bool :=
  c == '=' || c == '~' || c == '<' || c == '>' || c == '(' || c == ')'

structure Pieces where
  head : List Char
  tail : List (List Char)
  deriving DecidableEq, Repr

namespace Pieces

def push (c : Char) (p : Pieces) : Pieces :=
  { p with head := c :: p.head }

def cut (p : Pieces) : Pieces :=
  ⟨[], p.head :: p.tail⟩

def toList (p : Pieces) : List (List Char) :=
  p.head :: p.tail

def joined (p : Pieces) : String :=
  String.ofList (['*'].intercalate p.toList)

def part? (cs : List Char) : Option String :=
  if cs.isEmpty then none else some (String.ofList cs)

/-- What an equality asks for: a plain value, presence, or the parts between the stars. -/
def condition (p : Pieces) : Condition :=
  match p.tail with
  | [] => .equal (String.ofList p.head)
  | second :: more =>
    if p.head.isEmpty && second.isEmpty && more.isEmpty then .present
    else .substring (part? p.head) ((p.tail.dropLast).filterMap part?)
      (p.tail.getLast?.bind part?)

end Pieces

def readPieces : List Char → Except Failure (Pieces × List Char)
  | [] => .error ⟨.unterminated, []⟩
  | ')' :: cs => .ok (⟨[], []⟩, ')' :: cs)
  | '(' :: cs => .error ⟨.openInValue, '(' :: cs⟩
  | '*' :: cs => (readPieces cs).map fun r => (r.1.cut, r.2)
  | ['\\'] => .error ⟨.danglingEscape, []⟩
  | '\\' :: c :: cs => (readPieces cs).map fun r => (r.1.push c, r.2)
  | c :: cs => (readPieces cs).map fun r => (r.1.push c, r.2)

/-- Reads a comparison and its value; `make` turns the value into a condition. -/
def readComparison (make : String → Condition) (cs : List Char) :
    Except Failure (Condition × List Char) := do
  let cs ← take '=' cs
  let (pieces, cs) ← readPieces cs
  return (make pieces.joined, cs)

def readCondition (name : String) : List Char → Except Failure (Condition × List Char)
  | '=' :: cs => (readPieces cs).map fun r => (r.1.condition, r.2)
  | '~' :: cs => readComparison .approx cs
  | '>' :: cs => readComparison .atLeast cs
  | '<' :: cs => readComparison .atMost cs
  | c :: cs => .error ⟨.noOperator c name, cs⟩
  | [] => .error ⟨.endOfInput, []⟩

def readItem (cs : List Char) : Except Failure (Filter × List Char) :=
  let name := Text.trimChars (cs.takeWhile fun c => !endsName c)
  if name.isEmpty then .error ⟨.missingName, cs⟩
  else
    let name := String.ofList name
    (readCondition name (cs.dropWhile fun c => !endsName c)).map fun r => (.item name r.1, r.2)

mutual

/-- Reads a filter with its parentheses. The fuel bounds the nesting and the number of parts;
more than the number of characters is always enough. -/
def readFilter : Nat → List Char → Except Failure (Filter × List Char)
  | 0, cs => .error ⟨.endOfInput, cs⟩
  | fuel + 1, cs => do
    let cs ← take '(' cs
    let (f, cs) ← match skipBlanks cs with
      | '&' :: cs => (readParts fuel cs).map fun r => (.all r.1, r.2)
      | '|' :: cs => (readParts fuel cs).map fun r => (.any r.1, r.2)
      | '!' :: cs => (readFilter fuel (skipBlanks cs)).map fun r => (.negation r.1, r.2)
      | [] => .error ⟨.endOfInput, []⟩
      | cs => readItem cs
    let cs ← take ')' (skipBlanks cs)
    return (f, cs)

def readParts : Nat → List Char → Except Failure (List Filter × List Char)
  | 0, cs => .error ⟨.endOfInput, cs⟩
  | fuel + 1, cs => do
    match skipBlanks cs with
    | '(' :: cs =>
      let (f, cs) ← readFilter fuel ('(' :: cs)
      let (fs, cs) ← readMoreParts fuel cs
      return (f :: fs, cs)
    | cs => .error ⟨.noNested, cs⟩

def readMoreParts : Nat → List Char → Except Failure (List Filter × List Char)
  | 0, cs => .error ⟨.endOfInput, cs⟩
  | fuel + 1, cs => do
    match skipBlanks cs with
    | '(' :: cs =>
      let (f, cs) ← readFilter fuel ('(' :: cs)
      let (fs, cs) ← readMoreParts fuel cs
      return (f :: fs, cs)
    | cs => return ([], cs)

end

def readText (cs : List Char) : Except Failure Filter := do
  let (f, cs) ← readFilter (cs.length + 1) (skipBlanks cs)
  match skipBlanks cs with
  | [] => return f
  | c :: cs => .error ⟨.trailing c, c :: cs⟩

def byteSize (cs : List Char) : Nat :=
  cs.foldr (fun c n => c.utf8Size + n) 0

end Selector

/-- Why a text is no selector, and how many bytes of it were read before the fault. -/
structure SelectorError where
  cause : Selector.Cause
  position : Nat
  deriving DecidableEq, Repr

namespace SelectorError

def detail (e : SelectorError) : String :=
  e.cause.detail

def message (e : SelectorError) : String :=
  s!"invalid selector at position {e.position}: {e.detail}"

end SelectorError

def Selector.parse (text : String) : Except SelectorError Selector :=
  match Selector.readText text.toList with
  | .ok root => .ok ⟨Text.trim text, root⟩
  | .error e =>
    .error ⟨e.cause, Selector.byteSize text.toList - Selector.byteSize e.rest⟩

end Reconciliation
