import Reconciliation.Selector.Parser

/-! # The grammar of selectors

Which text spells which filter, told by rules and without a reader. A value is first taken apart
into symbols: a star that stands for any text and one that is meant are different things.
-/
namespace Reconciliation.Selector

def Blanks (cs : List Char) : Prop :=
  ∀ c ∈ cs, Text.isBlank c = true

/-- What a value is made of: characters that are meant, and stars that stand for any text. -/
inductive Symbol where
  | literal (c : Char)
  | star
  deriving DecidableEq, Repr

namespace Symbol

def char : Symbol → Char
  | literal c => c
  | star => '*'

end Symbol

def literals (cs : List Char) : List Symbol :=
  cs.map .literal

def literally (v : List Symbol) : String :=
  String.ofList (v.map Symbol.char)

/-- Behind a backslash every character is meant. Parentheses and backslashes stand nowhere else. -/
inductive SpellsValue : List Char → List Symbol → Prop where
  | empty : SpellsValue [] []
  | star {text : List Char} {v : List Symbol} (h : SpellsValue text v) :
      SpellsValue ('*' :: text) (.star :: v)
  | plain {c : Char} {text : List Char} {v : List Symbol} (hc : c ∉ ['(', ')', '\\', '*'])
      (h : SpellsValue text v) : SpellsValue (c :: text) (.literal c :: v)
  | escaped (c : Char) {text : List Char} {v : List Symbol} (h : SpellsValue text v) :
      SpellsValue ('\\' :: c :: text) (.literal c :: v)

inductive Operator where
  | equal
  | approx
  | atLeast
  | atMost
  deriving DecidableEq, Repr

namespace Operator

def text : Operator → List Char
  | equal => ['=']
  | approx => ['~', '=']
  | atLeast => ['>', '=']
  | atMost => ['<', '=']

/-- What an item with this operator and this value asks for. Stars mean something to equality only:
one that stands alone asks for presence, others cut the value into parts, of which the empty ones
say nothing. -/
inductive Asks : Operator → List Symbol → Condition → Prop where
  | equal {v : List Symbol} (h : .star ∉ v) : Asks .equal v (.equal (literally v))
  | present : Asks .equal [.star] .present
  | substring {first last : List Char} {middle : List (List Char)}
      (h : ¬ (first = [] ∧ middle = [] ∧ last = [])) :
      Asks .equal
        (literals first ++ middle.flatMap (fun part => .star :: literals part) ++
          .star :: literals last)
        (.substring (Pieces.part? first) (middle.filterMap Pieces.part?) (Pieces.part? last))
  | approx (v : List Symbol) : Asks .approx v (.approx (literally v))
  | atLeast (v : List Symbol) : Asks .atLeast v (.atLeast (literally v))
  | atMost (v : List Symbol) : Asks .atMost v (.atMost (literally v))

end Operator

/-- An attribute's name with the blanks behind it. It cannot begin like a combination of filters. -/
structure IsAttribute (text : List Char) : Prop where
  begins : ∃ c rest, text = c :: rest ∧ c ∉ ['&', '|', '!'] ∧ Text.isBlank c = false
  plain : ∀ c ∈ text, c ∉ ['=', '~', '<', '>', '(', ')']

/-- An item without its parentheses. The name is the attribute without blanks around it. -/
inductive SpellsItem : List Char → String → Condition → Prop where
  | item {attr value : List Char} {v : List Symbol} {asked : Condition} (op : Operator)
      (ha : IsAttribute attr) (hv : SpellsValue value v) (hc : op.Asks v asked) :
      SpellsItem (attr ++ op.text ++ value) (String.ofList (Text.trimChars attr)) asked

mutual

/-- A filter with its parentheses. Blanks may stand before and behind everything but an item, for
they would belong to its value. -/
inductive SpellsFilter : List Char → Filter → Prop where
  | all {before text after : List Char} {parts : List Filter} (hb : Blanks before)
      (h : SpellsParts text parts) (ha : Blanks after) :
      SpellsFilter ('(' :: before ++ '&' :: text ++ after ++ [')']) (.all parts)
  | any {before text after : List Char} {parts : List Filter} (hb : Blanks before)
      (h : SpellsParts text parts) (ha : Blanks after) :
      SpellsFilter ('(' :: before ++ '|' :: text ++ after ++ [')']) (.any parts)
  | negation {before inner text after : List Char} {part : Filter} (hb : Blanks before)
      (hi : Blanks inner) (h : SpellsFilter text part) (ha : Blanks after) :
      SpellsFilter ('(' :: before ++ '!' :: inner ++ text ++ after ++ [')']) (.negation part)
  | item {before text : List Char} {name : String} {asked : Condition} (hb : Blanks before)
      (h : SpellsItem text name asked) :
      SpellsFilter ('(' :: before ++ text ++ [')']) (.item name asked)

inductive SpellsParts : List Char → List Filter → Prop where
  | one {before text : List Char} {f : Filter} (hb : Blanks before) (h : SpellsFilter text f) :
      SpellsParts (before ++ text) [f]
  | more {before text texts : List Char} {f : Filter} {parts : List Filter} (hb : Blanks before)
      (h : SpellsFilter text f) (hrest : SpellsParts texts parts) :
      SpellsParts (before ++ text ++ texts) (f :: parts)

end

inductive Spells : List Char → Filter → Prop where
  | text {before text after : List Char} {f : Filter} (hb : Blanks before)
      (h : SpellsFilter text f) (ha : Blanks after) : Spells (before ++ text ++ after) f

end Reconciliation.Selector
