import Mathlib.Data.List.Infix
import Reconciliation.Proofs.Selector.RoundTrip
import Reconciliation.Selector.Matching

/-! # Patterns match by their parts

The matcher takes every part where it first occurs and never goes back. Nothing is missed that way:
whatever follows a later occurrence of a part follows the first one too.
-/
namespace Reconciliation

/-- A text made of these parts in their order, with any text before each of them. -/
inductive Spaced : List (List Char) → List Char → Prop where
  | nil : Spaced [] []
  | cons (gap part : List Char) {parts : List (List Char)} {rest : List Char}
      (h : Spaced parts rest) : Spaced (part :: parts) (gap ++ part ++ rest)

theorem Spaced.extend {parts : List (List Char)} {cs cs' : List Char} (h : Spaced parts cs)
    (hne : parts ≠ []) (hs : cs <:+ cs') : Spaced parts cs' := by
  obtain ⟨before, rfl⟩ := hs
  cases h with
  | nil => exact absurd rfl hne
  | cons gap part h =>
    have hlonger := Spaced.cons (before ++ gap) part h
    simpa using hlonger

theorem spaced_singleton_iff {part cs : List Char} : Spaced [part] cs ↔ part <:+ cs := by
  constructor
  · intro h
    cases h with
    | cons gap _ h =>
      cases h
      rw [List.append_nil]
      exact List.suffix_append gap part
  · rintro ⟨gap, rfl⟩
    have hone := Spaced.cons gap part .nil
    rwa [List.append_nil] at hone

theorem spaced_iff_exists_gaps {parts : List String} {cs : List Char} :
    Spaced (parts.map String.toList) cs ↔ ∃ gaps : List String, gaps.length = parts.length ∧
      cs = (String.join (List.zipWith (· ++ ·) gaps parts)).toList := by
  constructor
  · intro h
    induction parts generalizing cs with
    | nil =>
      cases h
      exact ⟨[], rfl, rfl⟩
    | cons part parts ih =>
      cases h with
      | cons gap _ h =>
        obtain ⟨gaps, hlength, rfl⟩ := ih h
        exact ⟨String.ofList gap :: gaps, congrArg (· + 1) hlength, by simp [String.toList_join]⟩
  · rintro ⟨gaps, hlength, rfl⟩
    induction parts generalizing gaps with
    | nil =>
      obtain rfl := List.length_eq_zero_iff.1 hlength
      exact .nil
    | cons part parts ih =>
      obtain ⟨gap, gaps, rfl⟩ := List.exists_cons_of_length_eq_add_one hlength
      have hrest := Spaced.cons gap.toList part.toList (ih gaps (Nat.succ.inj hlength))
      simpa [String.toList_join] using hrest

theorem afterFirst?_of_isPrefixOf? {part cs rest : List Char}
    (h : part.isPrefixOf? cs = some rest) : afterFirst? part cs = some rest := by
  cases cs with
  | nil =>
    obtain ⟨rfl, rfl⟩ := List.append_eq_nil_iff.1 (List.isPrefixOf?_eq_some_iff_append_eq.1 h)
    rfl
  | cons c cs => rw [afterFirst?, h]

theorem eq_append_of_afterFirst? {part cs rest : List Char} (h : afterFirst? part cs = some rest) :
    ∃ gap, cs = gap ++ part ++ rest := by
  induction cs with
  | nil =>
    have hfront : part ++ rest = [] := List.isPrefixOf?_eq_some_iff_append_eq.1 h
    exact ⟨[], hfront.symm⟩
  | cons c cs ih =>
    rw [afterFirst?] at h
    split at h
    · next hfront =>
      obtain rfl := Option.some.inj h
      exact ⟨[], (List.isPrefixOf?_eq_some_iff_append_eq.1 hfront).symm⟩
    · obtain ⟨gap, rfl⟩ := ih h
      exact ⟨c :: gap, rfl⟩

/-- Wherever a part occurs, the search finds an occurrence no later. -/
theorem afterFirst?_append (gap part tail : List Char) :
    ∃ rest, afterFirst? part (gap ++ part ++ tail) = some rest ∧ tail <:+ rest := by
  induction gap with
  | nil =>
    have hfront : part.isPrefixOf? (part ++ tail) = some tail :=
      List.isPrefixOf?_eq_some_iff_append_eq.2 rfl
    exact ⟨tail, afterFirst?_of_isPrefixOf? hfront, List.suffix_rfl⟩
  | cons c gap ih =>
    rw [List.cons_append, List.cons_append, afterFirst?]
    split
    · next rest hfront =>
      -- Both rests end the same text, and the one that was found is the longer.
      have happend := List.isPrefixOf?_eq_some_iff_append_eq.1 hfront
      refine ⟨rest, rfl, List.suffix_of_suffix_length_le ?_ (happend ▸ List.suffix_append _ _) ?_⟩
      · exact ⟨c :: (gap ++ part), rfl⟩
      · have hlength := congrArg List.length happend
        simp only [List.length_append, List.length_cons] at hlength
        omega
    · exact ih

theorem spaced_concat_iff {middle : List (List Char)} {last cs : List Char} :
    Spaced (middle ++ [last]) cs ↔ ∃ rest, afterParts? middle cs = some rest ∧ last <:+ rest := by
  induction middle generalizing cs with
  | nil => simp [afterParts?, spaced_singleton_iff]
  | cons part middle ih =>
    simp only [afterParts?, Option.bind_eq_some_iff]
    constructor
    · intro h
      cases h with
      | @cons gap _ _ tail h =>
        obtain ⟨rest, hfirst, htail⟩ := afterFirst?_append gap part tail
        obtain ⟨rest', hparts, hlast⟩ := ih.1 (h.extend (by simp) htail)
        exact ⟨rest', ⟨rest, hfirst, hparts⟩, hlast⟩
    · rintro ⟨rest', ⟨rest, hfirst, hparts⟩, hlast⟩
      obtain ⟨gap, rfl⟩ := eq_append_of_afterFirst? hfirst
      exact .cons gap part (ih.2 ⟨rest', hparts, hlast⟩)

theorem afterParts?_filterMap (parts : List (List Char)) :
    afterParts? ((parts.filterMap Selector.Pieces.part?).map String.toList) = afterParts? parts := by
  induction parts with
  | nil => rfl
  | cons part parts ih =>
    funext cs
    cases part with
    | nil =>
      have hempty : afterFirst? [] cs = some cs := afterFirst?_of_isPrefixOf? rfl
      simp [Selector.Pieces.part?, afterParts?, hempty, ih]
    | cons c part => simp [Selector.Pieces.part?, afterParts?, ih]

theorem substringMatches_eq (first last : Option String) (middle : List String)
    (actual : List Char) :
    substringMatches first middle last actual =
      ((first.elim (some actual) fun f => f.toList.isPrefixOf? actual).bind
        (afterParts? (middle.map String.toList))).any fun rest =>
          last.all fun l => l.toList.isSuffixOf rest := by
  unfold substringMatches
  cases first with
  | none =>
    dsimp only [Option.elim]
    generalize (some actual).bind (afterParts? (middle.map String.toList)) = found
    cases found <;> rfl
  | some f =>
    dsimp only [Option.elim]
    generalize (f.toList.isPrefixOf? actual).bind (afterParts? (middle.map String.toList)) = found
    cases found <;> rfl

theorem substringMatches_part? (first last actual : List Char) (middle : List (List Char)) :
    substringMatches (Selector.Pieces.part? first) (middle.filterMap Selector.Pieces.part?)
        (Selector.Pieces.part? last) actual =
      ((first.isPrefixOf? actual).bind (afterParts? middle)).any (last.isSuffixOf ·) := by
  have hstart : (Selector.Pieces.part? first).elim (some actual)
      (fun f => f.toList.isPrefixOf? actual) = first.isPrefixOf? actual := by
    cases first with
    | nil => rfl
    | cons c cs => simp [Selector.Pieces.part?]
  have hend : ∀ rest, (Selector.Pieces.part? last).all (fun l => l.toList.isSuffixOf rest) =
      last.isSuffixOf rest := by
    intro rest
    cases last with
    | nil => rfl
    | cons c cs => simp [Selector.Pieces.part?]
  simp only [substringMatches_eq, hstart, hend, afterParts?_filterMap]

theorem substringMatches_iff {first last actual : List Char} {middle : List (List Char)} :
    substringMatches (Selector.Pieces.part? first) (middle.filterMap Selector.Pieces.part?)
        (Selector.Pieces.part? last) actual = true ↔
      ∃ rest, actual = first ++ rest ∧ Spaced (middle ++ [last]) rest := by
  rw [substringMatches_part?]
  simp only [Option.any_eq_true, Option.bind_eq_some_iff, List.isPrefixOf?_eq_some_iff_append_eq,
    List.isSuffixOf_iff_suffix, spaced_concat_iff]
  constructor
  · rintro ⟨rest, ⟨rest', hactual, hparts⟩, hlast⟩
    exact ⟨rest', hactual.symm, rest, hparts, hlast⟩
  · rintro ⟨rest', hactual, rest, hparts, hlast⟩
    exact ⟨rest, ⟨rest', hactual.symm, hparts⟩, hlast⟩

/-- Of a value that is no list, presence and patterns ask nothing but its text. -/
theorem holds_pattern_iff {first : List Char} {more : List (List Char)} (hmore : more ≠ [])
    {v : Value} (hv : ∀ items, v ≠ .list items) :
    (Selector.Pieces.condition ⟨first, more⟩).holds v = true ↔
      ∃ rest, v.display.toList = first ++ rest ∧ Spaced more rest := by
  obtain ⟨middle, last, rfl⟩ := (List.eq_nil_or_concat' more).resolve_left hmore
  rw [Selector.Pieces.condition_concat]
  split
  · next hempty =>
    obtain ⟨rfl, rfl, rfl⟩ := hempty
    have hpresent : Condition.present.holds v = true := by
      cases v with
      | list items => exact absurd rfl (hv items)
      | _ => rfl
    have hspaced : Spaced [[]] v.display.toList := spaced_singleton_iff.2 List.nil_suffix
    exact iff_of_true hpresent ⟨_, rfl, hspaced⟩
  · rw [← substringMatches_iff]
    cases v with
    | list items => exact absurd rfl (hv items)
    | _ => rfl

namespace Selector

/-- The text of an item that asks for these parts, with any text between two of them. -/
def pattern (name : String) (parts : List String) : String :=
  "(" ++ name ++ "=" ++
    "*".intercalate (parts.map fun part => String.ofList (escape part.toList)) ++ ")"

theorem spellsValue_pattern (first : List Char) (more : List (List Char)) :
    SpellsValue (['*'].intercalate ((first :: more).map escape))
      (Pieces.symbols ⟨first, more⟩) := by
  induction more generalizing first with
  | nil => simpa [Pieces.symbols] using spellsValue_escape first
  | cons second more ih =>
    have hstar := (spellsValue_escape first).append (ih second).star
    simpa [Pieces.symbols] using hstar

theorem toList_pattern (name first : String) (more : List String) :
    (pattern name (first :: more)).toList = '(' :: (name.toList ++ '=' ::
      ['*'].intercalate ((first.toList :: more.map String.toList).map escape) ++ [')']) := by
  simp [pattern, String.toList_intercalate, Function.comp_def]

/-- A pattern is read, and it holds of a value that is no list just if the value's text is the first
part and then the others in their order, with any text before each of them. -/
theorem pattern_accepts_iff {name : String} (hname : IsName name) (first : String)
    {more : List String} (hmore : more ≠ []) (p : Properties) {v : Value}
    (hp : p.get? name = some v) (hv : ∀ items, v ≠ .list items) :
    ∃ s, parse (pattern name (first :: more)) = .ok s ∧
      (s.accepts p = true ↔ ∃ gaps : List String, gaps.length = more.length ∧
        v.display = first ++ String.join (List.zipWith (· ++ ·) gaps more)) := by
  have hread := readText_equality hname
    (spellsValue_pattern first.toList (more.map String.toList))
  rw [← toList_pattern, Pieces.ofSymbols_symbols] at hread
  refine ⟨⟨_, _⟩, parse_eq_ok_iff.2 ⟨hread, rfl⟩, ?_⟩
  have haccepts : ∀ asked source, accepts ⟨source, .item name asked⟩ p = asked.holds v := by
    intro asked source
    simp [accepts, Filter.holds, hp]
  rw [haccepts, holds_pattern_iff (by simpa using hmore) hv]
  simp only [spaced_iff_exists_gaps]
  constructor
  · rintro ⟨rest, htext, gaps, hlength, rfl⟩
    exact ⟨gaps, hlength, String.toList_inj.1 (by rw [htext, String.toList_append])⟩
  · rintro ⟨gaps, hlength, htext⟩
    exact ⟨_, by rw [htext, String.toList_append], gaps, hlength, rfl⟩

/-- A star that is meant, two that stand together, and a part that occurs more than once. -/
theorem starred_path_accepted : ∃ s, parse "(path=a*\\*b**b\\))" = .ok s ∧
    s.accepts (.ofList [("Path", .text "a/*bb*bb)")]) = true := by
  have hname : IsName "path" := by decide +kernel
  have hp : (Properties.ofList [("Path", .text "a/*bb*bb)")]).get? "path" =
      some (.text "a/*bb*bb)") := by
    decide +kernel
  have htext : pattern "path" ["a", "*b", "", "b)"] = "(path=a*\\*b**b\\))" := by
    decide +kernel
  have hmore : ["*b", "", "b)"] ≠ [] := List.cons_ne_nil _ _
  obtain ⟨s, hs, haccepts⟩ := pattern_accepts_iff hname "a" hmore _ hp nofun
  rw [htext] at hs
  exact ⟨s, hs, haccepts.2 ⟨["/", "b*b", ""], rfl, by decide +kernel⟩⟩

end Selector

end Reconciliation
