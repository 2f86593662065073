import Mathlib.Data.List.Basic
import Mathlib.Data.List.TakeWhile
import Reconciliation.Proofs.Selector.Grammar
import Reconciliation.Proofs.Text.Trimming

/-! # Items are read as they are spelled

Blanks, values and items. A value is cut into pieces while it is read, and its pieces say as much as
its symbols: each of them can be had from the other.
-/
namespace Reconciliation.Selector

theorem map_eq_ok_iff {ε α β : Type} {x : Except ε α} {f : α → β} {b : β} :
    x.map f = .ok b ↔ ∃ a, x = .ok a ∧ f a = b := by
  cases x <;> simp [Except.map]

theorem bind_eq_ok_iff {ε α β : Type} {x : Except ε α} {f : α → Except ε β} {b : β} :
    (x >>= f) = .ok b ↔ ∃ a, x = .ok a ∧ f a = .ok b := by
  cases x <;> simp [bind, Except.bind]

theorem map_eq_error_iff {ε α β : Type} {x : Except ε α} {f : α → β} {e : ε} :
    x.map f = .error e ↔ x = .error e := by
  cases x <;> simp [Except.map]

theorem bind_eq_error_iff {ε α β : Type} {x : Except ε α} {f : α → Except ε β} {e : ε} :
    (x >>= f) = .error e ↔ x = .error e ∨ ∃ a, x = .ok a ∧ f a = .error e := by
  cases x <;> simp [bind, Except.bind]

theorem Blanks.nil : Blanks [] := by
  intro c hc
  cases hc

theorem Blanks.append {before after : List Char} (hb : Blanks before) (ha : Blanks after) :
    Blanks (before ++ after) :=
  List.forall_mem_append.2 ⟨hb, ha⟩

theorem skipBlanks_eq_nil_iff {cs : List Char} : skipBlanks cs = [] ↔ Blanks cs :=
  List.dropWhile_eq_nil_iff

theorem skipBlanks_append {before : List Char} (h : Blanks before) (cs : List Char) :
    skipBlanks (before ++ cs) = skipBlanks cs :=
  List.dropWhile_append_of_pos h

theorem exists_blanks (cs : List Char) :
    ∃ before, Blanks before ∧ cs = before ++ skipBlanks cs :=
  ⟨cs.takeWhile Text.isBlank, fun _ => List.mem_takeWhile_imp,
    List.takeWhile_append_dropWhile.symm⟩

theorem skipBlanks_eq_cons_iff {cs rest : List Char} {c : Char} :
    skipBlanks cs = c :: rest ↔
      ∃ before, Blanks before ∧ cs = before ++ c :: rest ∧ Text.isBlank c = false := by
  constructor
  · intro h
    obtain ⟨before, hb, hcs⟩ := exists_blanks cs
    refine ⟨before, hb, h ▸ hcs, ?_⟩
    have hne : cs.dropWhile Text.isBlank ≠ [] := by
      intro hnil
      cases hnil.symm.trans h
    have hhead := List.head_dropWhile_not Text.isBlank hne
    have hcons : cs.dropWhile Text.isBlank = c :: rest := h
    simpa [hcons] using hhead
  · rintro ⟨before, hb, rfl, hc⟩
    rw [skipBlanks_append hb]
    simp [skipBlanks, Text.trimStart, hc]

theorem skipBlanks_closing {after : List Char} (ha : Blanks after) (rest : List Char) :
    skipBlanks (after ++ ')' :: rest) = ')' :: rest :=
  skipBlanks_eq_cons_iff.2 ⟨after, ha, rfl, by decide⟩

theorem take_eq_ok_iff {wanted : Char} {cs rest : List Char} :
    take wanted cs = .ok rest ↔ cs = wanted :: rest := by
  cases cs with
  | nil => simp [take]
  | cons c cs =>
    by_cases hc : c = wanted
    · simp [take, hc]
    · simp [take, hc]

theorem take_skipBlanks_eq_ok_iff {cs rest : List Char} :
    take ')' (skipBlanks cs) = .ok rest ↔
      ∃ before, Blanks before ∧ cs = before ++ ')' :: rest := by
  have hclose : Text.isBlank ')' = false := by decide
  rw [take_eq_ok_iff, skipBlanks_eq_cons_iff]
  simp only [hclose, and_true]

namespace Pieces

def ofSymbols : List Symbol → Pieces
  | [] => ⟨[], []⟩
  | .literal c :: v => (ofSymbols v).push c
  | .star :: v => (ofSymbols v).cut

def symbols (p : Pieces) : List Symbol :=
  literals p.head ++ p.tail.flatMap fun part => .star :: literals part

theorem symbols_push (c : Char) (p : Pieces) : (p.push c).symbols = .literal c :: p.symbols := rfl

theorem symbols_cut (p : Pieces) : p.cut.symbols = .star :: p.symbols := rfl

theorem symbols_ofSymbols (v : List Symbol) : (ofSymbols v).symbols = v := by
  induction v with
  | nil => rfl
  | cons x v ih =>
    cases x with
    | literal c => rw [ofSymbols, symbols_push, ih]
    | star => rw [ofSymbols, symbols_cut, ih]

theorem ofSymbols_literals_append (cs : List Char) (v : List Symbol) :
    ofSymbols (literals cs ++ v) = { ofSymbols v with head := cs ++ (ofSymbols v).head } := by
  induction cs with
  | nil => rfl
  | cons c cs ih =>
    change (ofSymbols (literals cs ++ v)).push c = _
    rw [ih]
    rfl

theorem ofSymbols_symbols (p : Pieces) : ofSymbols p.symbols = p := by
  obtain ⟨head, tail⟩ := p
  have htail : ofSymbols (tail.flatMap fun part => .star :: literals part) = ⟨[], tail⟩ := by
    induction tail with
    | nil => rfl
    | cons part tail ih =>
      rw [List.flatMap_cons, List.cons_append, ofSymbols, ofSymbols_literals_append, ih]
      simp [cut]
  rw [symbols, ofSymbols_literals_append, htail]
  simp

theorem ofSymbols_of_no_star {v : List Symbol} (h : .star ∉ v) :
    ofSymbols v = ⟨v.map Symbol.char, []⟩ := by
  induction v with
  | nil => rfl
  | cons x v ih =>
    simp only [List.mem_cons, not_or] at h
    cases x with
    | literal c =>
      rw [ofSymbols, ih h.2]
      rfl
    | star => exact absurd rfl h.1

theorem joined_ofSymbols (v : List Symbol) : (ofSymbols v).joined = literally v := by
  have hjoin : ['*'].intercalate (ofSymbols v).toList = v.map Symbol.char := by
    induction v with
    | nil => rfl
    | cons x v ih =>
      rw [List.map_cons, ← ih]
      cases x with
      | literal c =>
        rw [ofSymbols]
        cases h : (ofSymbols v).tail <;> simp [toList, push, h, Symbol.char]
      | star => simp [ofSymbols, toList, cut, Symbol.char]
  rw [joined, literally, hjoin]

end Pieces

theorem readPieces_plain {c : Char} (hc : c ∉ ['(', ')', '\\', '*']) (cs : List Char) :
    readPieces (c :: cs) = (readPieces cs).map fun r => (r.1.push c, r.2) := by
  simp only [List.mem_cons, List.not_mem_nil, or_false, not_or] at hc
  obtain ⟨h₁, h₂, h₃, h₄⟩ := hc
  simp [readPieces, *]

theorem readPieces_of_spells {text : List Char} {v : List Symbol} (h : SpellsValue text v)
    (rest : List Char) : readPieces (text ++ ')' :: rest) = .ok (.ofSymbols v, ')' :: rest) := by
  induction h with
  | empty => rfl
  | star _ ih => simp [readPieces, ih, Except.map, Pieces.ofSymbols]
  | plain hc _ ih =>
    rw [List.cons_append, readPieces_plain hc, ih]
    rfl
  | escaped c _ ih => simp [readPieces, ih, Except.map, Pieces.ofSymbols]

theorem isPlain_of {c : Char} {cs : List Char} (h₁ : c = ')' → False) (h₂ : c = '(' → False)
    (h₃ : c = '*' → False) (h₄ : c = '\\' → cs = [] → False)
    (h₅ : ∀ d cs', c = '\\' → cs = d :: cs' → False) : c ∉ ['(', ')', '\\', '*'] := by
  have h₆ : c ≠ '\\' := by
    intro hc
    cases cs with
    | nil => exact h₄ hc rfl
    | cons d cs => exact h₅ d cs hc rfl
  simp only [List.mem_cons, List.not_mem_nil, or_false, not_or]
  exact ⟨h₂, h₁, h₆, h₃⟩

theorem spells_of_readPieces {cs rest : List Char} {p : Pieces}
    (h : readPieces cs = .ok (p, rest)) :
    ∃ text rest', cs = text ++ rest ∧ rest = ')' :: rest' ∧ SpellsValue text p.symbols := by
  fun_induction readPieces cs generalizing p with
  | case1 => cases h
  | case2 cs =>
    cases h
    exact ⟨[], cs, rfl, rfl, .empty⟩
  | case3 => cases h
  | case4 cs ih =>
    obtain ⟨⟨q, _⟩, hq, heq⟩ := map_eq_ok_iff.1 h
    cases heq
    obtain ⟨text, rest', rfl, hr, hs⟩ := ih hq
    exact ⟨'*' :: text, rest', rfl, hr, hs.star⟩
  | case5 => cases h
  | case6 c cs ih =>
    obtain ⟨⟨q, _⟩, hq, heq⟩ := map_eq_ok_iff.1 h
    cases heq
    obtain ⟨text, rest', rfl, hr, hs⟩ := ih hq
    exact ⟨'\\' :: c :: text, rest', rfl, hr, hs.escaped c⟩
  | case7 c cs h₁ h₂ h₃ h₄ h₅ ih =>
    have hc := isPlain_of h₁ h₂ h₃ h₄ h₅
    obtain ⟨⟨q, _⟩, hq, heq⟩ := map_eq_ok_iff.1 h
    cases heq
    obtain ⟨text, rest', rfl, hr, hs⟩ := ih hq
    exact ⟨c :: text, rest', rfl, hr, hs.plain hc⟩

namespace Pieces

theorem condition_concat (first last : List Char) (middle : List (List Char)) :
    condition ⟨first, middle ++ [last]⟩ =
      if first = [] ∧ middle = [] ∧ last = [] then .present
      else .substring (part? first) (middle.filterMap part?) (part? last) := by
  cases middle with
  | nil =>
    have hp : (first.isEmpty && last.isEmpty && ([] : List (List Char)).isEmpty) = true ↔
        first = [] ∧ ([] : List (List Char)) = [] ∧ last = [] := by
      simp
    simp only [condition, List.nil_append, hp]
    rfl
  | cons second more =>
    have hp : ¬ (first.isEmpty && second.isEmpty && (more ++ [last]).isEmpty) = true := by simp
    have hdrop : (second :: more ++ [last]).dropLast = second :: more := List.dropLast_concat
    have hlast : (second :: more ++ [last]).getLast? = some last := List.getLast?_concat
    rw [List.cons_append] at hdrop hlast
    simp [condition, hdrop, hlast]

end Pieces

namespace Operator

/-- What an item with this operator asks for, by the pieces of its value. -/
def condition (op : Operator) (p : Pieces) : Condition :=
  match op with
  | equal => p.condition
  | approx => .approx p.joined
  | atLeast => .atLeast p.joined
  | atMost => .atMost p.joined

theorem asks_equal_condition (p : Pieces) : Operator.equal.Asks p.symbols p.condition := by
  obtain ⟨first, tail⟩ := p
  rcases List.eq_nil_or_concat' tail with rfl | ⟨middle, last, rfl⟩
  · have hstar : Symbol.star ∉ literals first := by simp [literals]
    have htext : literally (literals first) = String.ofList first := by
      simp [literally, literals, Function.comp_def, Symbol.char]
    have hsymbols : Pieces.symbols ⟨first, []⟩ = literals first := List.append_nil _
    have h := Asks.equal hstar
    rw [htext] at h
    rw [hsymbols]
    exact h
  · have hsymbols : Pieces.symbols ⟨first, middle ++ [last]⟩ = literals first ++
        middle.flatMap (fun part => .star :: literals part) ++ .star :: literals last := by
      simp [Pieces.symbols]
    rw [hsymbols, Pieces.condition_concat]
    split
    · rename_i h
      obtain ⟨rfl, rfl, rfl⟩ := h
      exact .present
    · rename_i h
      exact .substring h

theorem asks_iff (op : Operator) (v : List Symbol) (asked : Condition) :
    op.Asks v asked ↔ asked = op.condition (.ofSymbols v) := by
  constructor
  · intro h
    cases h with
    | equal h =>
      rw [condition, Pieces.ofSymbols_of_no_star h]
      rfl
    | present => rfl
    | @substring first last middle h =>
      have hp : Pieces.ofSymbols (literals first ++
          middle.flatMap (fun part => .star :: literals part) ++ .star :: literals last) =
          ⟨first, middle ++ [last]⟩ := by
        rw [← Pieces.ofSymbols_symbols ⟨first, middle ++ [last]⟩]
        simp [Pieces.symbols]
      rw [condition, hp, Pieces.condition_concat, if_neg h]
    | approx v => rw [condition, Pieces.joined_ofSymbols]
    | atLeast v => rw [condition, Pieces.joined_ofSymbols]
    | atMost v => rw [condition, Pieces.joined_ofSymbols]
  · rintro rfl
    cases op with
    | equal =>
      have h := asks_equal_condition (.ofSymbols v)
      rwa [Pieces.symbols_ofSymbols] at h
    | approx =>
      rw [condition, Pieces.joined_ofSymbols]
      exact .approx v
    | atLeast =>
      rw [condition, Pieces.joined_ofSymbols]
      exact .atLeast v
    | atMost =>
      rw [condition, Pieces.joined_ofSymbols]
      exact .atMost v

end Operator

theorem readCondition_eq_ok_iff {name : String} {cs : List Char} {r : Condition × List Char} :
    readCondition name cs = .ok r ↔ ∃ (op : Operator) (cs' : List Char), cs = op.text ++ cs' ∧
      (readPieces cs').map (fun p => (op.condition p.1, p.2)) = .ok r := by
  have hcomparison : ∀ (make : String → Condition) (cs : List Char),
      readComparison make cs = .ok r ↔ ∃ cs', cs = '=' :: cs' ∧
        (readPieces cs').map (fun p => (make p.1.joined, p.2)) = .ok r := by
    intro make cs
    simp only [readComparison, bind_eq_ok_iff, take_eq_ok_iff, map_eq_ok_iff, pure, Except.pure,
      Except.ok.injEq]
  constructor
  · intro h
    unfold readCondition at h
    split at h
    · rename_i cs
      exact ⟨.equal, cs, rfl, h⟩
    · obtain ⟨cs', rfl, h⟩ := (hcomparison _ _).1 h
      exact ⟨.approx, cs', rfl, h⟩
    · obtain ⟨cs', rfl, h⟩ := (hcomparison _ _).1 h
      exact ⟨.atLeast, cs', rfl, h⟩
    · obtain ⟨cs', rfl, h⟩ := (hcomparison _ _).1 h
      exact ⟨.atMost, cs', rfl, h⟩
    · cases h
    · cases h
  · rintro ⟨op, cs', rfl, h⟩
    cases op with
    | equal => exact h
    | approx => exact (hcomparison _ _).2 ⟨cs', rfl, h⟩
    | atLeast => exact (hcomparison _ _).2 ⟨cs', rfl, h⟩
    | atMost => exact (hcomparison _ _).2 ⟨cs', rfl, h⟩

theorem endsName_iff {c : Char} : endsName c = true ↔ c ∈ ['=', '~', '<', '>', '(', ')'] := by
  simp [endsName, or_assoc]

theorem Operator.endsName_head (op : Operator) (cs : List Char) :
    ∀ c ∈ (op.text ++ cs).head?, endsName c = true := by
  cases op <;> simp [Operator.text, endsName]

theorem IsAttribute.takeWhile_append {attr cs : List Char} (h : IsAttribute attr)
    (hcs : ∀ c ∈ cs.head?, endsName c = true) :
    (attr ++ cs).takeWhile (fun c => !endsName c) = attr ∧
      (attr ++ cs).dropWhile (fun c => !endsName c) = cs := by
  have hattr : ∀ c ∈ attr, (!endsName c) = true := by
    intro c hc
    rw [Bool.not_eq_true', ← Bool.not_eq_true, endsName_iff]
    exact h.plain c hc
  rw [List.takeWhile_append_of_pos hattr, List.dropWhile_append_of_pos hattr]
  cases cs with
  | nil => simp
  | cons c cs => simp [hcs c rfl]

theorem readItem_of_spells {text : List Char} {name : String} {asked : Condition}
    (h : SpellsItem text name asked) (rest : List Char) :
    readItem (text ++ ')' :: rest) = .ok (.item name asked, ')' :: rest) := by
  cases h with
  | @item attr value v _ op ha hv hc =>
    obtain ⟨htake, hdrop⟩ := ha.takeWhile_append (op.endsName_head (value ++ ')' :: rest))
    have hname : Text.trimChars attr ≠ [] := by
      obtain ⟨c, tail, rfl, -, hb⟩ := ha.begins
      exact Text.trimChars_ne_nil hb
    have hcondition : readCondition (String.ofList (Text.trimChars attr))
        (op.text ++ (value ++ ')' :: rest)) = .ok (asked, ')' :: rest) := by
      refine readCondition_eq_ok_iff.2 ⟨op, _, rfl, ?_⟩
      rw [readPieces_of_spells hv, (op.asks_iff v asked).1 hc]
      rfl
    simp only [readItem, List.append_assoc, htake, hdrop, hcondition, List.isEmpty_iff, hname,
      if_false]
    rfl

/-- What is read up to the operator is an attribute, unless it is blank. -/
theorem isAttribute_takeWhile {c : Char} {cs : List Char} (hc : c ∉ ['&', '|', '!'])
    (hb : Text.isBlank c = false)
    (hname : Text.trimChars ((c :: cs).takeWhile fun c => !endsName c) ≠ []) :
    IsAttribute ((c :: cs).takeWhile fun c => !endsName c) := by
  have hends : endsName c = false := by
    by_contra h
    rw [List.takeWhile_cons_of_neg (by simpa using h)] at hname
    exact hname rfl
  constructor
  · exact ⟨c, _, List.takeWhile_cons_of_pos (by simp [hends]), hc, hb⟩
  · intro d hd
    have hd := List.mem_takeWhile_imp hd
    rwa [Bool.not_eq_true', ← Bool.not_eq_true, endsName_iff] at hd

theorem spells_of_readItem {c : Char} {cs rest : List Char} {f : Filter}
    (hc : c ∉ ['&', '|', '!']) (hb : Text.isBlank c = false)
    (h : readItem (c :: cs) = .ok (f, rest)) :
    ∃ text rest' name asked, c :: cs = text ++ rest ∧ rest = ')' :: rest' ∧
      SpellsItem text name asked ∧ f = .item name asked := by
  unfold readItem at h
  dsimp only at h
  split at h
  · cases h
  · rename_i hname
    rw [List.isEmpty_iff] at hname
    have hattr := isAttribute_takeWhile hc hb hname
    obtain ⟨⟨asked, _⟩, hcondition, hf⟩ := map_eq_ok_iff.1 h
    obtain ⟨rfl, rfl⟩ := Prod.mk.inj hf
    obtain ⟨op, cs', hdrop, hvalue⟩ := readCondition_eq_ok_iff.1 hcondition
    obtain ⟨⟨p, _⟩, hp, hasked⟩ := map_eq_ok_iff.1 hvalue
    obtain ⟨rfl, rfl⟩ := Prod.mk.inj hasked
    obtain ⟨value, rest', rfl, hrest, hv⟩ := spells_of_readPieces hp
    have hasks : op.Asks p.symbols (op.condition p) := by
      rw [op.asks_iff, Pieces.ofSymbols_symbols]
    refine ⟨_, rest', _, _, ?_, hrest, .item op hattr hv hasks, rfl⟩
    rw [List.append_assoc, List.append_assoc, ← hdrop]
    exact List.takeWhile_append_dropWhile.symm

theorem SpellsItem.begins {text : List Char} {name : String} {asked : Condition}
    (h : SpellsItem text name asked) :
    ∃ c rest, text = c :: rest ∧ c ∉ ['&', '|', '!'] ∧ Text.isBlank c = false := by
  cases h with
  | item op ha _ _ =>
    obtain ⟨c, rest, rfl, hc, hb⟩ := ha.begins
    exact ⟨c, _, rfl, hc, hb⟩

end Reconciliation.Selector
