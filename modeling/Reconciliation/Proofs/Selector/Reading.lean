import Reconciliation.Proofs.Selector.Item

/-! # Reading follows the grammar

What is read is spelled, by induction on the fuel; what is spelled is read, by induction on the
rules, wherever there is more fuel than there are characters.
-/
namespace Reconciliation.Selector

theorem SpellsFilter.begins {text : List Char} {f : Filter} (h : SpellsFilter text f) :
    ∃ rest, text = '(' :: rest := by
  cases h <;> exact ⟨_, rfl⟩

theorem readParts_eq_ok_iff {fuel : Nat} {cs rest : List Char} {parts : List Filter} :
    readParts fuel cs = .ok (parts, rest) ↔
      readMoreParts fuel cs = .ok (parts, rest) ∧ parts ≠ [] := by
  cases fuel with
  | zero => simp [readParts, readMoreParts]
  | succ fuel =>
    rw [readParts, readMoreParts]
    split
    · simp only [bind_eq_ok_iff, pure, Except.pure, Except.ok.injEq, Prod.mk.injEq]
      constructor
      · rintro ⟨r, hr, r', hr', rfl, hrest⟩
        exact ⟨⟨r, hr, r', hr', rfl, hrest⟩, List.cons_ne_nil _ _⟩
      · exact fun h => h.1
    · simp only [pure, Except.pure, Except.ok.injEq, Prod.mk.injEq, reduceCtorEq, false_iff]
      rintro ⟨⟨rfl, -⟩, hne⟩
      exact hne rfl

/-- Reads what stands behind the opening parenthesis and the blanks that follow it. -/
def readBody (fuel : Nat) : List Char → Except Failure (Filter × List Char)
  | '&' :: cs => (readParts fuel cs).map fun r => (.all r.1, r.2)
  | '|' :: cs => (readParts fuel cs).map fun r => (.any r.1, r.2)
  | '!' :: cs => (readFilter fuel (skipBlanks cs)).map fun r => (.negation r.1, r.2)
  | [] => .error ⟨.endOfInput, []⟩
  | cs => readItem cs

theorem exists_unmarked {cs : List Char} (hall : ∀ cs', cs = '&' :: cs' → False)
    (hany : ∀ cs', cs = '|' :: cs' → False) (hnegation : ∀ cs', cs = '!' :: cs' → False)
    (hempty : cs = [] → False) : ∃ c cs', cs = c :: cs' ∧ c ∉ ['&', '|', '!'] := by
  obtain ⟨c, cs', rfl⟩ := List.exists_cons_of_ne_nil hempty
  refine ⟨c, cs', rfl, ?_⟩
  simp only [List.mem_cons, List.not_mem_nil, or_false]
  rintro (rfl | rfl | rfl)
  · exact hall cs' rfl
  · exact hany cs' rfl
  · exact hnegation cs' rfl

theorem readFilter_succ (fuel : Nat) (cs : List Char) :
    readFilter (fuel + 1) cs = take '(' cs >>= fun cs' =>
      readBody fuel (skipBlanks cs') >>= fun r =>
        take ')' (skipBlanks r.2) >>= fun rest => pure (r.1, rest) := by
  rw [readFilter]
  congr 1
  funext cs'
  generalize skipBlanks cs' = inner
  split
  case h_5 hall hany hnegation hempty =>
    have hitem : readBody fuel inner = readItem inner := by
      rw [readBody] <;> assumption
    rw [hitem]
  all_goals rfl

theorem readFilter_succ_eq_ok_iff {fuel : Nat} {cs rest : List Char} {f : Filter} :
    readFilter (fuel + 1) cs = .ok (f, rest) ↔ ∃ cs' after, cs = '(' :: cs' ∧ Blanks after ∧
      readBody fuel (skipBlanks cs') = .ok (f, after ++ ')' :: rest) := by
  simp only [readFilter_succ, bind_eq_ok_iff, @take_eq_ok_iff '(', take_skipBlanks_eq_ok_iff,
    pure, Except.pure, Except.ok.injEq, Prod.mk.injEq]
  constructor
  · rintro ⟨cs', rfl, ⟨f, inner⟩, hbody, rest, ⟨after, ha, rfl⟩, rfl, rfl⟩
    exact ⟨cs', after, rfl, ha, hbody⟩
  · rintro ⟨cs', after, rfl, ha, hbody⟩
    exact ⟨cs', rfl, _, hbody, rest, ⟨after, ha, rfl⟩, rfl, rfl⟩

/-- The parts of a list are read one after the other, until none follows. -/
theorem readMoreParts_succ_eq_ok_iff {fuel : Nat} {cs rest : List Char} {parts : List Filter} :
    readMoreParts (fuel + 1) cs = .ok (parts, rest) ↔
      (∃ cs' f more inner, skipBlanks cs = '(' :: cs' ∧
        readFilter fuel ('(' :: cs') = .ok (f, inner) ∧
        readMoreParts fuel inner = .ok (more, rest) ∧ parts = f :: more) ∨
      (∀ cs', skipBlanks cs ≠ '(' :: cs') ∧ parts = [] ∧ rest = skipBlanks cs := by
  rw [readMoreParts]
  split
  · rename_i cs' hcs
    simp only [bind_eq_ok_iff, pure, Except.pure, Except.ok.injEq, Prod.mk.injEq]
    constructor
    · rintro ⟨⟨f, inner⟩, hf, ⟨more, _⟩, hmore, rfl, rfl⟩
      exact Or.inl ⟨cs', f, more, inner, hcs, hf, hmore, rfl⟩
    · rintro (⟨cs'', f, more, inner, heq, hf, hmore, rfl⟩ | ⟨hno, -⟩)
      · obtain ⟨-, rfl⟩ := List.cons.inj (hcs.symm.trans heq)
        exact ⟨_, hf, _, hmore, rfl, rfl⟩
      · exact absurd hcs (hno cs')
  · rename_i hno
    simp only [pure, Except.pure, Except.ok.injEq, Prod.mk.injEq]
    constructor
    · rintro ⟨rfl, rfl⟩
      exact Or.inr ⟨hno, rfl, rfl⟩
    · rintro (⟨cs', f, more, inner, heq, -⟩ | ⟨-, rfl, rfl⟩)
      · exact absurd heq (hno cs')
      · exact ⟨rfl, rfl⟩

theorem readMoreParts_eq_nil {fuel : Nat} {cs rest : List Char}
    (h : readMoreParts fuel cs = .ok ([], rest)) : rest = skipBlanks cs := by
  cases fuel with
  | zero => cases h
  | succ fuel =>
    rcases readMoreParts_succ_eq_ok_iff.1 h with
      ⟨_, _, _, _, -, -, -, hparts⟩ | ⟨-, -, hrest⟩
    · cases hparts
    · exact hrest

structure ReadsSoundly (fuel : Nat) : Prop where
  filter : ∀ cs f rest, readFilter fuel cs = .ok (f, rest) →
    ∃ text, cs = text ++ rest ∧ SpellsFilter text f
  parts : ∀ cs parts rest, readMoreParts fuel cs = .ok (parts, rest) → parts ≠ [] →
    ∃ text after, cs = text ++ after ++ rest ∧ SpellsParts text parts ∧ Blanks after

theorem ReadsSoundly.succ_parts {fuel : Nat} (h : ReadsSoundly fuel) (cs : List Char)
    (parts : List Filter) (rest : List Char)
    (hr : readMoreParts (fuel + 1) cs = .ok (parts, rest)) (hne : parts ≠ []) :
    ∃ text after, cs = text ++ after ++ rest ∧ SpellsParts text parts ∧ Blanks after := by
  rcases readMoreParts_succ_eq_ok_iff.1 hr with
    ⟨cs', f, more, inner, hcs, hf, hmore, rfl⟩ | ⟨-, rfl, -⟩
  · obtain ⟨before, hb, rfl, -⟩ := skipBlanks_eq_cons_iff.1 hcs
    obtain ⟨text, htext, hs⟩ := h.filter _ _ _ hf
    rw [htext]
    cases more with
    | nil =>
      have hrest : rest = skipBlanks inner := readMoreParts_eq_nil hmore
      obtain ⟨after, ha, hinner⟩ := exists_blanks inner
      rw [hrest]
      refine ⟨before ++ text, after, ?_, .one hb hs, ha⟩
      rw [List.append_assoc, List.append_assoc, ← hinner]
    | cons g more =>
      obtain ⟨texts, after, rfl, hss, ha⟩ := h.parts _ _ _ hmore (List.cons_ne_nil g more)
      exact ⟨before ++ text ++ texts, after, by simp, .more hb hs hss, ha⟩
  · exact absurd rfl hne

theorem ReadsSoundly.succ_filter {fuel : Nat} (h : ReadsSoundly fuel) (cs : List Char) (f : Filter)
    (rest : List Char) (hr : readFilter (fuel + 1) cs = .ok (f, rest)) :
    ∃ text, cs = text ++ rest ∧ SpellsFilter text f := by
  obtain ⟨cs', after, rfl, ha, hbody⟩ := readFilter_succ_eq_ok_iff.1 hr
  obtain ⟨before, hb, hcs⟩ := exists_blanks cs'
  rw [hcs]
  have hparts : ∀ {cs parts rest}, readParts fuel cs = .ok (parts, rest) →
      ∃ text after, cs = text ++ after ++ rest ∧ SpellsParts text parts ∧ Blanks after :=
    fun hp => h.parts _ _ _ (readParts_eq_ok_iff.1 hp).1 (readParts_eq_ok_iff.1 hp).2
  unfold readBody at hbody
  split at hbody
  case h_1 heq =>
    obtain ⟨⟨parts, _⟩, hp, hf⟩ := map_eq_ok_iff.1 hbody
    obtain ⟨rfl, rfl⟩ := Prod.mk.inj hf
    obtain ⟨text, inner, rfl, hs, hi⟩ := hparts hp
    exact ⟨_, by rw [heq]; simp, .all hb hs (hi.append ha)⟩
  case h_2 heq =>
    obtain ⟨⟨parts, _⟩, hp, hf⟩ := map_eq_ok_iff.1 hbody
    obtain ⟨rfl, rfl⟩ := Prod.mk.inj hf
    obtain ⟨text, inner, rfl, hs, hi⟩ := hparts hp
    exact ⟨_, by rw [heq]; simp, .any hb hs (hi.append ha)⟩
  case h_3 cs heq =>
    obtain ⟨⟨part, _⟩, hp, hf⟩ := map_eq_ok_iff.1 hbody
    obtain ⟨rfl, rfl⟩ := Prod.mk.inj hf
    obtain ⟨inner, hi, hcs⟩ := exists_blanks cs
    obtain ⟨text, htext, hs⟩ := h.filter _ _ _ hp
    exact ⟨_, by rw [heq, hcs, htext]; simp, .negation hb hi hs ha⟩
  case h_4 => cases hbody
  case h_5 hall hany hnegation hempty =>
    obtain ⟨c, cs, hc, hmark⟩ := exists_unmarked hall hany hnegation hempty
    obtain ⟨-, -, -, hblank⟩ := skipBlanks_eq_cons_iff.1 hc
    rw [hc] at hbody
    obtain ⟨text, rest', name, asked, htext, hrest, hs, rfl⟩ :=
      spells_of_readItem hmark hblank hbody
    have hafter : after = [] := by
      cases after with
      | nil => rfl
      | cons d after =>
        obtain ⟨rfl, -⟩ := List.cons.inj hrest
        exact absurd (ha _ List.mem_cons_self) (by decide)
    rw [hafter] at htext
    exact ⟨_, by rw [hc, htext]; simp, .item hb hs⟩

theorem readsSoundly (fuel : Nat) : ReadsSoundly fuel := by
  induction fuel with
  | zero =>
    constructor
    · intro cs f rest h
      cases h
    · intro cs parts rest h
      cases h
  | succ fuel ih => exact ⟨ih.succ_filter, ih.succ_parts⟩

theorem readFilter_of_readBody {fuel : Nat} {before cs after rest : List Char} {c : Char}
    {f : Filter} (hb : Blanks before) (hc : Text.isBlank c = false) (ha : Blanks after)
    (h : readBody fuel (c :: cs) = .ok (f, after ++ ')' :: rest)) :
    readFilter (fuel + 1) ('(' :: (before ++ c :: cs)) = .ok (f, rest) := by
  refine readFilter_succ_eq_ok_iff.2 ⟨_, after, rfl, ha, ?_⟩
  rw [skipBlanks_eq_cons_iff.2 ⟨before, hb, rfl, hc⟩]
  exact h

theorem readBody_item {c : Char} (hc : c ∉ ['&', '|', '!']) (fuel : Nat) (cs : List Char) :
    readBody fuel (c :: cs) = readItem (c :: cs) := by
  simp only [List.mem_cons, List.not_mem_nil, or_false, not_or] at hc
  rw [readBody]
  · rintro _ ⟨⟩
    exact hc.1 rfl
  · rintro _ ⟨⟩
    exact hc.2.1 rfl
  · rintro _ ⟨⟩
    exact hc.2.2 rfl
  · rintro ⟨⟩

theorem SpellsParts.ne_nil {text : List Char} {parts : List Filter} (h : SpellsParts text parts) :
    parts ≠ [] := by
  cases h <;> exact List.cons_ne_nil _ _

/-- A combination is read if its list is read wherever no filter follows. -/
theorem readFilter_parts {fuel : Nat} {before text after : List Char} {parts : List Filter}
    {mark : Char} {make : List Filter → Filter} (hmark : Text.isBlank mark = false)
    (hbody : ∀ cs, readBody fuel (mark :: cs) =
      (readParts fuel cs).map fun r => (make r.1, r.2))
    (hb : Blanks before) (hne : parts ≠ [])
    (hread : ∀ rest, (∀ cs, skipBlanks rest ≠ '(' :: cs) →
      readMoreParts fuel (text ++ rest) = .ok (parts, skipBlanks rest))
    (ha : Blanks after) (rest : List Char) :
    readFilter (fuel + 1) ('(' :: before ++ mark :: text ++ after ++ [')'] ++ rest) =
      .ok (make parts, rest) := by
  have hclose := skipBlanks_closing ha rest
  have hmore := hread (after ++ ')' :: rest) (by simp [hclose])
  rw [hclose] at hmore
  have hinner : readBody fuel (mark :: (text ++ (after ++ ')' :: rest))) =
      .ok (make parts, [] ++ ')' :: rest) := by
    rw [hbody, readParts_eq_ok_iff.2 ⟨hmore, hne⟩]
    rfl
  simpa using readFilter_of_readBody hb hmark .nil hinner

theorem readMoreParts_cons {fuel : Nat} {before text rest rest' : List Char} {f : Filter}
    {parts : List Filter} (hb : Blanks before) (h : SpellsFilter text f)
    (hread : readFilter fuel (text ++ rest) = .ok (f, rest))
    (hmore : readMoreParts fuel rest = .ok (parts, rest')) :
    readMoreParts (fuel + 1) (before ++ text ++ rest) = .ok (f :: parts, rest') := by
  obtain ⟨tail, rfl⟩ := h.begins
  have hnext : skipBlanks (before ++ '(' :: tail ++ rest) = '(' :: (tail ++ rest) :=
    skipBlanks_eq_cons_iff.2 ⟨before, hb, by simp, by decide⟩
  exact readMoreParts_succ_eq_ok_iff.2
    (Or.inl ⟨tail ++ rest, f, parts, rest, hnext, hread, hmore, rfl⟩)

theorem readMoreParts_nil {fuel : Nat} {rest : List Char} (hfuel : 0 < fuel)
    (hno : ∀ cs, skipBlanks rest ≠ '(' :: cs) :
    readMoreParts fuel rest = .ok ([], skipBlanks rest) := by
  obtain ⟨fuel, rfl⟩ := Nat.exists_eq_add_one_of_ne_zero (Nat.ne_of_gt hfuel)
  exact readMoreParts_succ_eq_ok_iff.2 (Or.inr ⟨hno, rfl, rfl⟩)

mutual

/-- With more fuel than there are characters, a filter is read wherever it stands. -/
theorem SpellsFilter.read {text : List Char} {f : Filter} : SpellsFilter text f →
    ∀ fuel rest, text.length < fuel → readFilter fuel (text ++ rest) = .ok (f, rest)
  | .all hb h ha => by
    intro fuel rest hfuel
    obtain ⟨fuel, rfl⟩ := Nat.exists_eq_add_one_of_ne_zero (Nat.ne_zero_of_lt hfuel)
    simp only [List.length_append, List.length_cons] at hfuel
    exact readFilter_parts (by decide) (fun _ => rfl) hb h.ne_nil (h.read fuel · (by omega)) ha rest
  | .any hb h ha => by
    intro fuel rest hfuel
    obtain ⟨fuel, rfl⟩ := Nat.exists_eq_add_one_of_ne_zero (Nat.ne_zero_of_lt hfuel)
    simp only [List.length_append, List.length_cons] at hfuel
    exact readFilter_parts (by decide) (fun _ => rfl) hb h.ne_nil (h.read fuel · (by omega)) ha rest
  | @SpellsFilter.negation before inner text after part hb hi h ha => by
    intro fuel rest hfuel
    obtain ⟨fuel, rfl⟩ := Nat.exists_eq_add_one_of_ne_zero (Nat.ne_zero_of_lt hfuel)
    simp only [List.length_append, List.length_cons] at hfuel
    have hpart := h.read fuel (after ++ ')' :: rest) (by omega)
    have hinner : skipBlanks (inner ++ (text ++ (after ++ ')' :: rest))) =
        text ++ (after ++ ')' :: rest) := by
      obtain ⟨tail, rfl⟩ := h.begins
      exact skipBlanks_eq_cons_iff.2 ⟨inner, hi, rfl, by decide⟩
    have hbody : readBody fuel ('!' :: (inner ++ (text ++ (after ++ ')' :: rest)))) =
        .ok (.negation part, after ++ ')' :: rest) := by
      rw [readBody, hinner, hpart]
      rfl
    simpa using readFilter_of_readBody hb (by decide) ha hbody
  | @SpellsFilter.item before text name asked hb h => by
    intro fuel rest hfuel
    obtain ⟨fuel, rfl⟩ := Nat.exists_eq_add_one_of_ne_zero (Nat.ne_zero_of_lt hfuel)
    have hitem := readItem_of_spells h rest
    obtain ⟨c, tail, rfl, hc, hblank⟩ := h.begins
    have hbody : readBody fuel (c :: (tail ++ ')' :: rest)) =
        .ok (.item name asked, [] ++ ')' :: rest) := by
      rw [readBody_item hc]
      exact hitem
    simpa using readFilter_of_readBody hb hblank .nil hbody

/-- A list of filters is read to its end where none follows, and the blanks behind it too. -/
theorem SpellsParts.read {text : List Char} {parts : List Filter} : SpellsParts text parts →
    ∀ fuel rest, text.length + 1 < fuel → (∀ cs, skipBlanks rest ≠ '(' :: cs) →
      readMoreParts fuel (text ++ rest) = .ok (parts, skipBlanks rest)
  | @SpellsParts.one before text f hb h => by
    intro fuel rest hfuel hno
    obtain ⟨fuel, rfl⟩ := Nat.exists_eq_add_one_of_ne_zero (Nat.ne_zero_of_lt hfuel)
    simp only [List.length_append] at hfuel
    exact readMoreParts_cons hb h (h.read fuel rest (by omega))
      (readMoreParts_nil (by omega) hno)
  | @SpellsParts.more before text texts f parts hb h hrest => by
    intro fuel rest hfuel hno
    obtain ⟨fuel, rfl⟩ := Nat.exists_eq_add_one_of_ne_zero (Nat.ne_zero_of_lt hfuel)
    have hpos : 0 < text.length := by
      obtain ⟨tail, rfl⟩ := h.begins
      exact Nat.succ_pos _
    simp only [List.length_append] at hfuel
    rw [List.append_assoc]
    exact readMoreParts_cons hb h (h.read fuel (texts ++ rest) (by omega))
      (hrest.read fuel rest (by omega) hno)

end

/-- There is fuel for every text, so nothing but the grammar decides what is read. -/
theorem readText_eq_ok_iff {cs : List Char} {f : Filter} : readText cs = .ok f ↔ Spells cs f := by
  constructor
  · intro h
    obtain ⟨⟨g, rest⟩, hread, hend⟩ := bind_eq_ok_iff.1 h
    obtain ⟨before, hb, hcs⟩ := exists_blanks cs
    obtain ⟨text, htext, hs⟩ := (readsSoundly _).filter _ _ _ hread
    dsimp only at hend
    split at hend
    · rename_i hrest
      cases hend
      rw [hcs, htext, ← List.append_assoc]
      exact .text hb hs (skipBlanks_eq_nil_iff.1 hrest)
    · cases hend
  · intro h
    cases h with
    | @text before text after f hb hs ha =>
      obtain ⟨tail, rfl⟩ := hs.begins
      have hblank : skipBlanks (before ++ '(' :: tail ++ after) = '(' :: tail ++ after :=
        skipBlanks_eq_cons_iff.2 ⟨before, hb, by simp, by decide⟩
      have hread := hs.read ((before ++ '(' :: tail ++ after).length + 1) after (by simp; omega)
      rw [readText, hblank, hread]
      simp only [bind, Except.bind, skipBlanks_eq_nil_iff.2 ha]
      rfl

example : Spells "(&(a=\\*)( b =x*))".toList
    (.all [.item "a" (.equal "*"), .item "b" (.substring (some "x") [] none)]) :=
  readText_eq_ok_iff.1 (by decide +kernel)

/-- A text is a selector just if the grammar spells it, and then the selector has the filter that is
spelled. -/
theorem parse_eq_ok_iff_spells (text : String) (f : Filter) :
    (∃ s, parse text = .ok s ∧ s.root = f) ↔ Spells text.toList f := by
  rw [← readText_eq_ok_iff, parse]
  cases h : readText text.toList with
  | ok g => simp
  | error e => simp

end Reconciliation.Selector
