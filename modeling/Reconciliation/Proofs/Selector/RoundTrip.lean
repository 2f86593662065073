import Reconciliation.Proofs.Selector.Reading

/-! # What is written is read back

The text of an equality has its value escaped and its name as it is. It is read back whatever the
value, unless no item can have the name.
-/
namespace Reconciliation.Selector

/-- Trimming takes the blanks away that stand around a text, and nothing of the text. -/
theorem trimChars_append {before text after : List Char} (hb : Blanks before) (ha : Blanks after)
    (hne : text ≠ []) (hfirst : ∀ c ∈ text.head?, Text.isBlank c = false)
    (hlast : ∀ c ∈ text.getLast?, Text.isBlank c = false) :
    Text.trimChars (before ++ text ++ after) = text := by
  have hstart : Text.trimStart (before ++ text ++ after) = text ++ after := by
    rw [List.append_assoc]
    refine (skipBlanks_append hb _).trans (Text.trimStart_eq_self ?_)
    rwa [List.head?_append_of_ne_nil text hne]
  rw [Text.trimChars, hstart, Text.trimEnd_eq, Text.rdropWhile_append ha hlast]

structure IsName (name : String) : Prop where
  ne_nil : name.toList ≠ []
  /-- No blank stands at its beginning. -/
  starts : ∀ c ∈ name.toList.head?, Text.isBlank c = false
  /-- No blank stands at its end. -/
  ends : ∀ c ∈ name.toList.getLast?, Text.isBlank c = false
  plain : ∀ c ∈ name.toList, c ∉ ['=', '~', '<', '>', '(', ')']
  /-- It does not begin like a combination of filters. -/
  unmarked : ∀ c ∈ name.toList.head?, c ∉ ['&', '|', '!']

instance (name : String) : Decidable (IsName name) :=
  decidable_of_iff
    (name.toList ≠ [] ∧ name.toList.head?.all (fun c => !Text.isBlank c) = true ∧
      name.toList.getLast?.all (fun c => !Text.isBlank c) = true ∧
      name.toList.all (fun c => c ∉ ['=', '~', '<', '>', '(', ')']) = true ∧
      name.toList.head?.all (fun c => c ∉ ['&', '|', '!']) = true) <| by
    simp only [Option.all_eq_true, List.all_eq_true, Bool.not_eq_true', decide_eq_true_eq]
    exact ⟨fun ⟨h₁, h₂, h₃, h₄, h₅⟩ => ⟨h₁, h₂, h₃, h₄, h₅⟩,
      fun ⟨h₁, h₂, h₃, h₄, h₅⟩ => ⟨h₁, h₂, h₃, h₄, h₅⟩⟩

theorem IsName.isAttribute {name : String} (h : IsName name) : IsAttribute name.toList := by
  obtain ⟨c, rest, hc⟩ := List.exists_cons_of_ne_nil h.ne_nil
  have hhead : c ∈ name.toList.head? := by simp [hc]
  exact ⟨⟨c, rest, hc, h.unmarked c hhead, h.starts c hhead⟩, h.plain⟩

theorem IsName.trimChars_eq {name : String} (h : IsName name) :
    Text.trimChars name.toList = name.toList := by
  have htrim := trimChars_append .nil .nil h.ne_nil h.starts h.ends
  rwa [List.nil_append, List.append_nil] at htrim

theorem IsAttribute.isName {attr : List Char} (h : IsAttribute attr) :
    IsName (String.ofList (Text.trimChars attr)) := by
  obtain ⟨c, rest, hattr, hmark, hblank⟩ := h.begins
  have hne : Text.trimChars attr ≠ [] := hattr ▸ Text.trimChars_ne_nil hblank
  have hstart : Text.trimStart attr = attr := Text.trimStart_eq_self (by simp [hattr, hblank])
  have htrim : Text.trimChars attr = Text.trimEnd attr := by rw [Text.trimChars, hstart]
  have hinitial : Text.trimChars attr <+: attr := htrim ▸ Text.trimEnd_prefix attr
  have hhead : (Text.trimChars attr).head? = some c := by
    obtain ⟨behind, hbehind⟩ := hinitial
    have happend : (Text.trimChars attr ++ behind).head? = (Text.trimChars attr).head? :=
      List.head?_append_of_ne_nil _ hne
    rw [← happend, hbehind, hattr]
    rfl
  constructor
  · rwa [String.toList_ofList]
  · rw [String.toList_ofList, hhead]
    rintro _ ⟨⟩
    exact hblank
  · rw [String.toList_ofList, htrim]
    exact Text.getLast?_trimEnd attr
  · rw [String.toList_ofList]
    exact fun d hd => h.plain d (hinitial.subset hd)
  · rw [String.toList_ofList, hhead]
    rintro _ ⟨⟩
    exact hmark

theorem Spells.isName {text : List Char} {name : String} {asked : Condition}
    (h : Spells text (.item name asked)) : IsName name := by
  cases h with
  | text _ hs _ =>
    cases hs with
    | item _ hi =>
      cases hi with
      | item _ ha _ _ => exact ha.isName

theorem SpellsValue.append {text text' : List Char} {v v' : List Symbol} (h : SpellsValue text v)
    (h' : SpellsValue text' v') : SpellsValue (text ++ text') (v ++ v') := by
  induction h with
  | empty => exact h'
  | star _ ih => exact ih.star
  | plain hc _ ih => exact ih.plain hc
  | escaped c _ ih => exact ih.escaped c

theorem spellsValue_escape (cs : List Char) : SpellsValue (escape cs) (literals cs) := by
  induction cs with
  | nil => exact .empty
  | cons c cs ih =>
    rw [escape, List.flatMap_cons]
    by_cases hc : isSpecial c = true
    · rw [if_pos hc]
      exact ih.escaped c
    · rw [if_neg hc]
      have hplain : c ∉ ['(', ')', '\\', '*'] := by
        simp only [isSpecial, Bool.or_eq_true, beq_iff_eq, not_or] at hc
        simp [hc]
      exact ih.plain hplain

theorem readText_equality {name : String} (hname : IsName name) {value : List Char}
    {v : List Symbol} (hv : SpellsValue value v) :
    readText ('(' :: (name.toList ++ '=' :: value ++ [')'])) =
      .ok (.item name (Pieces.ofSymbols v).condition) := by
  have hasks : Operator.equal.Asks v (Pieces.ofSymbols v).condition :=
    (Operator.asks_iff _ _ _).2 rfl
  have hitem := SpellsItem.item .equal hname.isAttribute hv hasks
  rw [hname.trimChars_eq, String.ofList_toList] at hitem
  have hspells := Spells.text .nil (.item .nil hitem) .nil
  apply readText_eq_ok_iff.2
  simpa [Operator.text] using hspells

theorem parse_eq_ok_iff {text : String} {s : Selector} :
    parse text = .ok s ↔ readText text.toList = .ok s.root ∧ s.source = Text.trim text := by
  obtain ⟨source, root⟩ := s
  rw [parse]
  cases readText text.toList with
  | ok f => simp [and_comm, eq_comm]
  | error e => simp

theorem toList_equals_source (name value : String) :
    (equals name value).source.toList =
      '(' :: (name.toList ++ '=' :: escape value.toList ++ [')']) := by
  simp [equals]

theorem readText_equals {name : String} (hname : IsName name) (value : String) :
    readText (equals name value).source.toList = .ok (equals name value).root := by
  have hstar : Symbol.star ∉ literals value.toList := by simp [literals]
  have hcondition : (Pieces.ofSymbols (literals value.toList)).condition = .equal value := by
    rw [Pieces.ofSymbols_of_no_star hstar]
    simp [Pieces.condition, literals, Function.comp_def, Symbol.char]
  rw [toList_equals_source, readText_equality hname (spellsValue_escape value.toList), hcondition]
  rfl

theorem SpellsFilter.getLast? {text : List Char} {f : Filter} (h : SpellsFilter text f) :
    text.getLast? = some ')' := by
  cases h <;> exact List.getLast?_concat

theorem Spells.trim {text : List Char} {f : Filter} (h : Spells text f) :
    Spells (Text.trimChars text) f ∧
      Text.trimChars (Text.trimChars text) = Text.trimChars text := by
  cases h with
  | @text before text after _ hb hs ha =>
    have hparen : Text.isBlank '(' = false ∧ Text.isBlank ')' = false := by decide
    have htrim : ∀ {before after}, Blanks before → Blanks after →
        Text.trimChars (before ++ text ++ after) = text := by
      intro before after hb ha
      obtain ⟨rest, htext⟩ := hs.begins
      refine trimChars_append hb ha (by simp [htext]) ?_ ?_
      · simp [htext, hparen]
      · simp [hs.getLast?, hparen]
    have hself := htrim .nil .nil
    have hspells := Spells.text .nil hs .nil
    rw [List.nil_append, List.append_nil] at hself hspells
    rw [htrim hb ha]
    exact ⟨hspells, hself⟩

/-- What is written for an equality is read back as that equality just if an item can have its name,
and what was read once is read again from its own text as the very same selector. -/
theorem parse_source :
    (∀ name value : String, (∃ s, parse (equals name value).source = .ok s ∧
        s.same (equals name value) = true) ↔ IsName name) ∧
      ∀ (text : String) (s : Selector), parse text = .ok s → parse s.source = .ok s := by
  constructor
  · intro name value
    constructor
    · rintro ⟨s, hs, hsame⟩
      have hroot : s.root = (equals name value).root := beq_iff_eq.1 hsame
      have hread := (parse_eq_ok_iff.1 hs).1
      rw [hroot] at hread
      exact (readText_eq_ok_iff.1 hread).isName
    · intro hname
      have hparse : parse (equals name value).source =
          .ok ⟨Text.trim (equals name value).source, (equals name value).root⟩ :=
        parse_eq_ok_iff.2 ⟨readText_equals hname value, rfl⟩
      exact ⟨_, hparse, beq_iff_eq.2 rfl⟩
  · intro text s hs
    obtain ⟨hread, hsource⟩ := parse_eq_ok_iff.1 hs
    obtain ⟨hspells, htrim⟩ := (readText_eq_ok_iff.1 hread).trim
    have hlist : s.source.toList = Text.trimChars text.toList := by
      rw [hsource, Text.trim, String.toList_ofList]
    refine parse_eq_ok_iff.2 ⟨?_, ?_⟩
    · rw [hlist]
      exact readText_eq_ok_iff.2 hspells
    · rw [Text.trim, hlist, htrim, ← hlist, String.ofList_toList]

/-- A value of blanks and stars comes back, and so does a filter with blanks all over its text. -/
theorem blanks_and_stars_reread :
    (∃ s, parse (equals "a b" " *) ").source = .ok s ∧ s.same (equals "a b" " *) ") = true) ∧
      ∃ s, parse " ( & (a= 1 ) (b =x*) )\n" = .ok s ∧ s.source = "( & (a= 1 ) (b =x*) )" ∧
        parse s.source = .ok s := by
  have hname : IsName "a b" := by decide +kernel
  have hparse : parse " ( & (a= 1 ) (b =x*) )\n" = .ok ⟨"( & (a= 1 ) (b =x*) )",
      .all [.item "a" (.equal " 1 "), .item "b" (.substring (some "x") [] none)]⟩ := by
    decide +kernel
  exact ⟨(parse_source.1 "a b" " *) ").2 hname, _, hparse, rfl, parse_source.2 _ _ hparse⟩

end Reconciliation.Selector
