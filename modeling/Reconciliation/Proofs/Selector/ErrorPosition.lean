import Reconciliation.Proofs.Selector.RoundTrip

/-! # Where reading stops

A text is read for as long as something can follow that makes a selector of it. Every reader stops
before the first character that nothing can make good; only a parenthesis that stands in the place
of an operator has been read when it is found out.
-/
namespace Reconciliation.Selector

def Cause.passed : Cause → List Char
  | noOperator found _ => [found]
  | _ => []

def Failure.left (e : Failure) : List Char :=
  e.cause.passed ++ e.rest

structure Reader where
  Spelled : List Char → Prop
  Accepts : List Char → Prop

namespace Reader

variable {R S : Reader} {cs left : List Char}

/-- The reader has read as much as it could: something can follow what it has read, but not the
character that does. -/
def Stops (R : Reader) (cs left : List Char) : Prop :=
  ∃ read, cs = read ++ left ∧ (∃ more, R.Spelled (read ++ more)) ∧
    ∀ c rest, left = c :: rest → ∀ rest', ¬ R.Accepts (read ++ c :: rest')

theorem stops_at_end (more : List Char) (h : R.Spelled (cs ++ more)) : R.Stops cs [] :=
  ⟨cs, (List.append_nil cs).symm, ⟨more, h⟩, fun _ _ h => nomatch h⟩

theorem stops_at_once (text : List Char) (h : R.Spelled text)
    (hrefuses : ∀ c rest, cs = c :: rest → ∀ rest', ¬ R.Accepts (c :: rest')) : R.Stops cs cs :=
  ⟨[], rfl, ⟨text, h⟩, hrefuses⟩

/-- A reader that calls another one stops where that one stops. All that the called one could refuse
begins as the text did: elsewhere a list might go on, or a name have more letters. -/
theorem Stops.within (h : R.Stops cs left) (before : List Char)
    (hspelled : ∀ text, R.Spelled text → ∃ after, S.Spelled (before ++ text ++ after))
    (haccepts : ∀ cs', cs'.head? = cs.head? → S.Accepts (before ++ cs') → R.Accepts cs') :
    S.Stops (before ++ cs) left := by
  obtain ⟨read, rfl, ⟨more, hmore⟩, hrefuses⟩ := h
  refine ⟨before ++ read, (List.append_assoc before read left).symm, ?_, ?_⟩
  · obtain ⟨after, hafter⟩ := hspelled _ hmore
    exact ⟨more ++ after, by simpa using hafter⟩
  · intro c rest hleft rest' haccepted
    have hhead : (read ++ c :: rest').head? = (read ++ left).head? := by
      rw [hleft]
      cases read <;> rfl
    rw [List.append_assoc] at haccepted
    exact hrefuses c rest hleft rest' (haccepts _ hhead haccepted)

def mark (c : Char) : Reader where
  Spelled text := text = [c]
  Accepts cs := ∃ rest, cs = c :: rest

theorem stops_at_mark {c : Char} (h : ∀ rest, cs ≠ c :: rest) : (mark c).Stops cs cs := by
  refine stops_at_once [c] rfl ?_
  rintro d rest rfl rest' ⟨_, heq⟩
  obtain ⟨rfl, -⟩ := List.cons.inj heq
  exact h rest rfl

end Reader

theorem take_stops {wanted : Char} {cs : List Char} {e : Failure} (h : take wanted cs = .error e) :
    (Reader.mark wanted).Stops cs e.left := by
  have hno : ∀ rest, cs ≠ wanted :: rest := by
    rintro rest rfl
    simp [take] at h
  have hleft : e.left = cs := by
    cases cs with
    | nil =>
      cases h
      rfl
    | cons c cs =>
      have hc : c ≠ wanted := by
        rintro rfl
        exact hno cs rfl
      rw [take, if_neg hc] at h
      cases h
      rfl
  rw [hleft]
  exact Reader.stops_at_mark hno

theorem isBlank_of_head?_skipBlanks {cs : List Char} :
    ∀ c ∈ (skipBlanks cs).head?, Text.isBlank c = false := by
  intro c hc
  obtain ⟨rest, hrest⟩ := List.head?_eq_some_iff.1 hc
  obtain ⟨-, -, -, hblank⟩ := skipBlanks_eq_cons_iff.1 hrest
  exact hblank

theorem skipBlanks_append_of_head? {before cs cs' : List Char} (hb : Blanks before)
    (h : cs'.head? = (skipBlanks cs).head?) : skipBlanks (before ++ cs') = cs' := by
  rw [skipBlanks_append hb]
  exact Text.trimStart_eq_self (h ▸ isBlank_of_head?_skipBlanks)

namespace Reader

def value : Reader where
  Spelled text := ∃ v, SpellsValue text v
  Accepts cs := ∃ r, readPieces cs = .ok r

def comparison (make : String → Condition) : Reader where
  Spelled text := ∃ value v, text = '=' :: value ∧ SpellsValue value v
  Accepts cs := ∃ r, readComparison make cs = .ok r

def condition (name : String) : Reader where
  Spelled text := ∃ (op : Operator) (value : List Char) (v : List Symbol),
    text = op.text ++ value ∧ SpellsValue value v
  Accepts cs := ∃ r, readCondition name cs = .ok r

def item : Reader where
  Spelled text := ∃ name asked, SpellsItem text name asked
  Accepts cs := ∃ r, readItem cs = .ok r

end Reader

/-- What a reader of values adds to a piece does not matter to where it stops. -/
theorem value_stops_behind {cs left : List Char} (h : Reader.value.Stops cs left)
    (before : List Char) {add : Pieces → Pieces}
    (hspelled : ∀ {text v}, SpellsValue text v → ∃ v', SpellsValue (before ++ text) v')
    (hreads : ∀ cs, readPieces (before ++ cs) = (readPieces cs).map fun r => (add r.1, r.2)) :
    Reader.value.Stops (before ++ cs) left := by
  refine h.within before ?_ ?_
  · rintro text ⟨v, hv⟩
    obtain ⟨v', hv'⟩ := hspelled hv
    exact ⟨[], v', by simpa using hv'⟩
  · rintro cs' - ⟨r, hr⟩
    rw [hreads] at hr
    obtain ⟨p, hp, -⟩ := map_eq_ok_iff.1 hr
    exact ⟨p, hp⟩

theorem readPieces_stops {cs : List Char} {e : Failure} (h : readPieces cs = .error e) :
    Reader.value.Stops cs e.left := by
  fun_induction readPieces cs with
  | case1 =>
    cases h
    exact Reader.stops_at_end [] ⟨[], .empty⟩
  | case2 => cases h
  | case3 cs =>
    cases h
    refine Reader.stops_at_once [] ⟨[], .empty⟩ ?_
    rintro _ _ ⟨⟩ rest' ⟨r, hr⟩
    cases hr
  | case4 cs ih =>
    have hstops := ih (map_eq_error_iff.1 h)
    exact value_stops_behind hstops ['*'] (fun hv => ⟨_, hv.star⟩) fun _ => rfl
  | case5 =>
    cases h
    exact Reader.stops_at_end ['a'] ⟨_, .escaped 'a' .empty⟩
  | case6 c cs ih =>
    have hstops := ih (map_eq_error_iff.1 h)
    exact value_stops_behind hstops ['\\', c] (fun hv => ⟨_, hv.escaped c⟩) fun _ => rfl
  | case7 c cs h₁ h₂ h₃ h₄ h₅ ih =>
    have hc := isPlain_of h₁ h₂ h₃ h₄ h₅
    have hstops := ih (map_eq_error_iff.1 h)
    exact value_stops_behind hstops [c] (fun hv => ⟨_, hv.plain hc⟩) (readPieces_plain hc)

theorem readComparison_stops {make : String → Condition} {cs : List Char} {e : Failure}
    (h : readComparison make cs = .error e) : (Reader.comparison make).Stops cs e.left := by
  have haccepts : ∀ cs, (Reader.comparison make).Accepts cs →
      ∃ rest, cs = '=' :: rest ∧ Reader.value.Accepts rest := by
    rintro cs ⟨r, hr⟩
    obtain ⟨rest, htake, hr⟩ := bind_eq_ok_iff.1 hr
    obtain ⟨p, hp, -⟩ := bind_eq_ok_iff.1 hr
    exact ⟨rest, take_eq_ok_iff.1 htake, p, hp⟩
  rcases bind_eq_error_iff.1 h with htake | ⟨rest, htake, hvalue⟩
  · refine (take_stops htake).within [] ?_ ?_
    · rintro _ rfl
      exact ⟨[], [], [], rfl, .empty⟩
    · rintro cs' - hcs'
      obtain ⟨rest, rfl, -⟩ := haccepts _ hcs'
      exact ⟨rest, rfl⟩
  · rw [take_eq_ok_iff.1 htake]
    rcases bind_eq_error_iff.1 hvalue with hvalue | ⟨p, -, hp⟩
    · refine (readPieces_stops hvalue).within ['='] ?_ ?_
      · rintro text ⟨v, hv⟩
        exact ⟨[], text, v, by simp, hv⟩
      · rintro cs' - hcs'
        obtain ⟨rest, heq, hrest⟩ := haccepts _ hcs'
        obtain ⟨-, rfl⟩ := List.cons.inj heq
        exact hrest
    · cases hp

theorem readCondition_stops {name : String} {cs : List Char} {e : Failure}
    (h : readCondition name cs = .error e) : (Reader.condition name).Stops cs e.left := by
  have hcomparison : ∀ (op : Operator) (c : Char) (make : String → Condition) (cs : List Char),
      op.text = [c, '='] → (∀ cs, readCondition name (c :: cs) = readComparison make cs) →
      readComparison make cs = .error e → (Reader.condition name).Stops (c :: cs) e.left := by
    intro op c make cs hop hreads hread
    refine (readComparison_stops hread).within [c] ?_ ?_
    · rintro _ ⟨value, v, rfl, hv⟩
      exact ⟨[], op, value, v, by simp [hop], hv⟩
    · rintro cs' - ⟨r, hr⟩
      exact ⟨r, (hreads cs').symm.trans hr⟩
  unfold readCondition at h
  split at h
  · refine (readPieces_stops (map_eq_error_iff.1 h)).within ['='] ?_ ?_
    · rintro text ⟨v, hv⟩
      exact ⟨[], .equal, text, v, by simp [Operator.text], hv⟩
    · rintro cs' - ⟨r, hr⟩
      obtain ⟨p, hp, -⟩ := map_eq_ok_iff.1 hr
      exact ⟨p, hp⟩
  · exact hcomparison .approx _ _ _ rfl (fun _ => rfl) h
  · exact hcomparison .atLeast _ _ _ rfl (fun _ => rfl) h
  · exact hcomparison .atMost _ _ _ rfl (fun _ => rfl) h
  · rename_i c cs h₁ h₂ h₃ h₄
    cases h
    refine Reader.stops_at_once ['='] ⟨.equal, [], [], rfl, .empty⟩ ?_
    rintro _ _ ⟨⟩ rest' ⟨r, hr⟩
    rw [readCondition] at hr
    · cases hr
    all_goals assumption
  · cases h
    exact Reader.stops_at_end ['='] ⟨.equal, [], [], rfl, .empty⟩

theorem spellsItem_a : SpellsItem ['a', '='] "a" (.equal "") := by
  have hattr : IsAttribute ['a'] := ⟨⟨'a', [], rfl, by simp, by decide⟩, by simp⟩
  exact .item .equal hattr .empty (.equal (by decide))

theorem readItem_stops {c : Char} {cs : List Char} {e : Failure} (hc : c ∉ ['&', '|', '!'])
    (hb : Text.isBlank c = false) (h : readItem (c :: cs) = .error e) :
    Reader.item.Stops (c :: cs) e.left := by
  unfold readItem at h
  dsimp only at h
  split at h
  · rename_i hname
    cases h
    have hends : endsName c = true := by
      by_contra hends
      rw [List.takeWhile_cons_of_pos (by simp [hends]), List.isEmpty_iff] at hname
      exact Text.trimChars_ne_nil hb hname
    refine Reader.stops_at_once ['a', '='] ⟨_, _, spellsItem_a⟩ ?_
    rintro _ _ ⟨⟩ rest' ⟨r, hr⟩
    simp [readItem, hends, Text.trimChars, Text.trimStart, Text.trimEnd] at hr
  · rename_i hname
    rw [List.isEmpty_iff] at hname
    have hattr := isAttribute_takeWhile hc hb hname
    have hsplit := List.takeWhile_append_dropWhile (p := fun c => !endsName c) (l := c :: cs)
    have hstops := (readCondition_stops (map_eq_error_iff.1 h)).within (S := .item)
      ((c :: cs).takeWhile fun c => !endsName c) ?_ ?_
    · rwa [hsplit] at hstops
    · rintro _ ⟨op, value, v, rfl, hv⟩
      have hitem := SpellsItem.item op hattr hv ((op.asks_iff v _).2 rfl)
      rw [List.append_assoc, ← List.append_nil (_ ++ (op.text ++ value))] at hitem
      exact ⟨[], _, _, hitem⟩
    · rintro cs' hhead ⟨r, hr⟩
      have hends : ∀ d ∈ cs'.head?, endsName d = true := by
        intro d hd
        have hdrop := List.head?_dropWhile_not (fun c => !endsName c) (c :: cs)
        rw [hhead, Option.mem_def] at hd
        simpa [hd] using hdrop
      obtain ⟨htake, hdrop⟩ := hattr.takeWhile_append hends
      simp only [readItem, htake, hdrop, List.isEmpty_iff, hname, if_false] at hr
      obtain ⟨p, hp, -⟩ := map_eq_ok_iff.1 hr
      exact ⟨p, hp⟩

namespace Reader

def filter : Reader where
  Spelled text := ∃ f, SpellsFilter text f
  Accepts cs := ∃ fuel r, readFilter fuel cs = .ok r

/-- What stands behind the opening parenthesis and the blanks that follow it, with the closing
one. -/
def inside : Reader where
  Spelled text := ∃ f, ∀ before, Blanks before → SpellsFilter ('(' :: before ++ text) f
  Accepts cs := ∃ fuel f after rest,
    Blanks after ∧ readBody fuel cs = .ok (f, after ++ ')' :: rest)

def parts : Reader where
  Spelled text := ∃ parts, SpellsParts text parts
  Accepts cs := ∃ fuel r, readParts fuel cs = .ok r

def moreParts : Reader where
  Spelled text := ∃ parts, SpellsParts text parts
  Accepts cs := ∃ fuel r, readMoreParts fuel cs = .ok r

end Reader

theorem spellsFilter_a : SpellsFilter ['(', 'a', '=', ')'] (.item "a" (.equal "")) :=
  .item .nil spellsItem_a

theorem SpellsFilter.rest_unique {text rest rest' : List Char} {f g : Filter} {fuel : Nat}
    (h : SpellsFilter text f) (hr : readFilter fuel (text ++ rest) = .ok (g, rest')) :
    rest' = rest := by
  obtain ⟨text', htext, hs⟩ := (readsSoundly fuel).filter _ _ _ hr
  have hread := h.read (text.length + text'.length + 1) rest (by omega)
  have hread' := hs.read (text.length + text'.length + 1) rest' (by omega)
  rw [htext, hread'] at hread
  cases hread
  rfl

theorem readMoreParts_rest {fuel : Nat} {cs rest : List Char} {parts : List Filter}
    (h : readMoreParts fuel cs = .ok (parts, rest)) : ∀ cs', skipBlanks rest ≠ '(' :: cs' := by
  induction fuel generalizing cs parts with
  | zero => cases h
  | succ fuel ih =>
    rcases readMoreParts_succ_eq_ok_iff.1 h with ⟨_, _, more, inner, -, -, hmore, -⟩ | ⟨hno, -, rfl⟩
    · exact ih hmore
    · have hskip : skipBlanks (skipBlanks cs) = skipBlanks cs := skipBlanks_append_of_head? .nil rfl
      rwa [hskip]

theorem SpellsParts.rest_unique {text rest rest' : List Char} {parts parts' : List Filter}
    {fuel : Nat} (h : SpellsParts text parts) (hno : ∀ cs, skipBlanks rest ≠ '(' :: cs)
    (hr : readParts fuel (text ++ rest) = .ok (parts', rest')) :
    skipBlanks rest' = skipBlanks rest := by
  obtain ⟨hmore, hne⟩ := readParts_eq_ok_iff.1 hr
  obtain ⟨text', after, htext, hs, ha⟩ := (readsSoundly fuel).parts _ _ _ hmore hne
  have hread := h.read (text.length + text'.length + 2) rest (by omega) hno
  have hread' := hs.read (text.length + text'.length + 2) (after ++ rest') (by omega)
    (by rw [skipBlanks_append ha]; exact readMoreParts_rest hmore)
  rw [skipBlanks_append ha, ← List.append_assoc, ← htext, hread] at hread'
  exact (Prod.mk.inj (Except.ok.inj hread')).2.symm

structure Combines (mark : Char) (make : List Filter → Filter) : Prop where
  reads : ∀ fuel cs, readBody fuel (mark :: cs) =
    (readParts fuel cs).map fun r => (make r.1, r.2)
  spells : ∀ {before text after : List Char} {parts : List Filter}, Blanks before →
    SpellsParts text parts → Blanks after →
      SpellsFilter ('(' :: before ++ mark :: text ++ after ++ [')']) (make parts)

theorem combines_all : Combines '&' .all :=
  ⟨fun _ _ => rfl, .all⟩

theorem combines_any : Combines '|' .any :=
  ⟨fun _ _ => rfl, .any⟩

namespace Combines

variable {mark : Char} {make : List Filter → Filter} (hm : Combines mark make)
include hm

theorem accepts {cs : List Char} (h : Reader.inside.Accepts (mark :: cs)) :
    ∃ fuel parts after rest, Blanks after ∧
      readParts fuel cs = .ok (parts, after ++ ')' :: rest) := by
  obtain ⟨fuel, f, after, rest, ha, hbody⟩ := h
  rw [hm.reads] at hbody
  obtain ⟨⟨parts, _⟩, hparts, heq⟩ := map_eq_ok_iff.1 hbody
  cases heq
  exact ⟨fuel, parts, after, rest, ha, hparts⟩

theorem parts_stop {cs left : List Char} (h : Reader.parts.Stops cs left) :
    Reader.inside.Stops (mark :: cs) left := by
  refine h.within [mark] ?_ ?_
  · rintro text ⟨parts, hs⟩
    exact ⟨[')'], make parts, fun before hb => by simpa using hm.spells hb hs .nil⟩
  · rintro cs' - hcs'
    obtain ⟨fuel, parts, after, rest, -, hparts⟩ := hm.accepts hcs'
    exact ⟨fuel, _, hparts⟩

theorem close_stops {fuel : Nat} {cs rest : List Char} {parts : List Filter} {e : Failure}
    (h : readParts fuel cs = .ok (parts, rest)) (he : take ')' (skipBlanks rest) = .error e) :
    Reader.inside.Stops (mark :: cs) e.left := by
  obtain ⟨hmore, hne⟩ := readParts_eq_ok_iff.1 h
  obtain ⟨text, after, rfl, hs, ha⟩ := (readsSoundly fuel).parts _ _ _ hmore hne
  obtain ⟨blanks, hblanks, hrest⟩ := exists_blanks rest
  have hafter := ha.append hblanks
  have hno := readMoreParts_rest hmore
  have hstops := (take_stops he).within (S := .inside) (mark :: text ++ (after ++ blanks)) ?_ ?_
  · rw [hrest]
    simpa using hstops
  · rintro _ rfl
    exact ⟨[], make parts, fun before hb => by simpa using hm.spells hb hs hafter⟩
  · intro cs' hhead hcs'
    have hskip : skipBlanks (after ++ blanks ++ cs') = cs' :=
      skipBlanks_append_of_head? hafter hhead
    rw [List.append_assoc] at hcs'
    obtain ⟨fuel', parts', after', rest', ha', hparts'⟩ := hm.accepts hcs'
    have hsame := hs.rest_unique ?_ hparts'
    · rw [skipBlanks_closing ha', hskip] at hsame
      exact ⟨rest', hsame.symm⟩
    · rintro cs'' heq
      rw [hskip] at heq
      obtain ⟨cs₀, hcs₀⟩ := List.head?_eq_some_iff.1 (hhead.symm.trans (by rw [heq]; rfl))
      exact hno cs₀ hcs₀

end Combines

theorem negation_accepts {cs : List Char} (h : Reader.inside.Accepts ('!' :: cs)) :
    ∃ fuel f after rest, Blanks after ∧
      readFilter fuel (skipBlanks cs) = .ok (f, after ++ ')' :: rest) := by
  obtain ⟨fuel, f, after, rest, ha, hbody⟩ := h
  obtain ⟨⟨part, _⟩, hpart, heq⟩ := map_eq_ok_iff.1 hbody
  cases heq
  exact ⟨fuel, part, after, rest, ha, hpart⟩

theorem negation_stops {cs left : List Char} (h : Reader.filter.Stops (skipBlanks cs) left) :
    Reader.inside.Stops ('!' :: cs) left := by
  obtain ⟨inner, hi, hcs⟩ := exists_blanks cs
  have hstops := h.within (S := .inside) ('!' :: inner) ?_ ?_
  · rwa [List.cons_append, ← hcs] at hstops
  · rintro text ⟨f, hs⟩
    exact ⟨[')'], .negation f, fun before hb => by
      simpa using SpellsFilter.negation hb hi hs .nil⟩
  · intro cs' hhead hcs'
    rw [List.cons_append] at hcs'
    obtain ⟨fuel, f, after, rest, -, hpart⟩ := negation_accepts hcs'
    rw [skipBlanks_append_of_head? hi hhead] at hpart
    exact ⟨fuel, _, hpart⟩

theorem negation_close_stops {fuel : Nat} {cs rest : List Char} {part : Filter} {e : Failure}
    (h : readFilter fuel (skipBlanks cs) = .ok (part, rest))
    (he : take ')' (skipBlanks rest) = .error e) : Reader.inside.Stops ('!' :: cs) e.left := by
  obtain ⟨inner, hi, hcs⟩ := exists_blanks cs
  obtain ⟨text, htext, hs⟩ := (readsSoundly fuel).filter _ _ _ h
  obtain ⟨after, ha, hrest⟩ := exists_blanks rest
  have hstops := (take_stops he).within (S := .inside) ('!' :: inner ++ (text ++ after)) ?_ ?_
  · rw [hcs, htext, hrest]
    simpa using hstops
  · rintro _ rfl
    exact ⟨[], .negation part, fun before hb => by
      simpa using SpellsFilter.negation hb hi hs ha⟩
  · intro cs' hhead hcs'
    obtain ⟨tail, rfl⟩ := hs.begins
    have hskip : skipBlanks (inner ++ ('(' :: tail ++ after) ++ cs') =
        '(' :: tail ++ (after ++ cs') :=
      skipBlanks_eq_cons_iff.2 ⟨inner, hi, by simp, by decide⟩
    rw [List.cons_append, List.cons_append] at hcs'
    obtain ⟨fuel', f, after', rest', ha', hpart⟩ := negation_accepts hcs'
    rw [hskip] at hpart
    have hsame := congrArg skipBlanks (hs.rest_unique hpart)
    rw [skipBlanks_closing ha', skipBlanks_append_of_head? ha hhead] at hsame
    exact ⟨rest', hsame.symm⟩

/-- A filter that is not closed is read up to where its parenthesis is missing. -/
theorem readBody_close_stops {fuel : Nat} {cs rest : List Char} {f : Filter} {e : Failure}
    (hhead : ∀ c ∈ cs.head?, Text.isBlank c = false) (h : readBody fuel cs = .ok (f, rest))
    (he : take ')' (skipBlanks rest) = .error e) : Reader.inside.Stops cs e.left := by
  unfold readBody at h
  split at h
  · obtain ⟨⟨parts, _⟩, hparts, heq⟩ := map_eq_ok_iff.1 h
    cases heq
    exact combines_all.close_stops hparts he
  · obtain ⟨⟨parts, _⟩, hparts, heq⟩ := map_eq_ok_iff.1 h
    cases heq
    exact combines_any.close_stops hparts he
  · obtain ⟨⟨part, _⟩, hpart, heq⟩ := map_eq_ok_iff.1 h
    cases heq
    exact negation_close_stops hpart he
  · cases h
  · rename_i hall hany hnegation hempty
    obtain ⟨c, cs, rfl, hmark⟩ := exists_unmarked hall hany hnegation hempty
    obtain ⟨_, rest', _, _, -, rfl, -⟩ := spells_of_readItem hmark (hhead c rfl) h
    cases he

structure StopsRightly (fuel : Nat) : Prop where
  filter : ∀ cs e, cs.length < fuel → readFilter fuel cs = .error e →
    Reader.filter.Stops cs e.left
  parts : ∀ cs e, cs.length + 1 < fuel → readMoreParts fuel cs = .error e →
    Reader.moreParts.Stops cs e.left

theorem readParts_eq_error {fuel : Nat} {cs : List Char} {e : Failure}
    (h : readParts fuel cs = .error e) : readMoreParts fuel cs = .error e ∨
      e = ⟨.noNested, skipBlanks cs⟩ ∧ ∀ cs', skipBlanks cs ≠ '(' :: cs' := by
  cases fuel with
  | zero => exact Or.inl h
  | succ fuel =>
    rw [readParts] at h
    rw [readMoreParts]
    split at h
    · rename_i cs' hcs
      rw [hcs]
      exact Or.inl h
    · rename_i hno
      cases h
      exact Or.inr ⟨rfl, hno⟩

theorem readMoreParts_succ_eq_error {fuel : Nat} {cs : List Char} {e : Failure}
    (h : readMoreParts (fuel + 1) cs = .error e) : ∃ cs', skipBlanks cs = '(' :: cs' ∧
      (readFilter fuel ('(' :: cs') = .error e ∨
        ∃ f inner, readFilter fuel ('(' :: cs') = .ok (f, inner) ∧
          readMoreParts fuel inner = .error e) := by
  rw [readMoreParts] at h
  split at h
  · rename_i cs' hcs
    refine ⟨cs', hcs, ?_⟩
    rcases bind_eq_error_iff.1 h with h | ⟨⟨f, inner⟩, hf, h⟩
    · exact Or.inl h
    · rcases bind_eq_error_iff.1 h with h | ⟨r, -, hr⟩
      · exact Or.inr ⟨f, inner, hf, h⟩
      · cases hr
  · cases h

theorem moreParts_accepts {before cs : List Char} (hb : Blanks before) (hhead : cs.head? = some '(')
    (h : Reader.moreParts.Accepts (before ++ cs)) : ∃ fuel f inner r,
      readFilter fuel cs = .ok (f, inner) ∧ readMoreParts fuel inner = .ok r := by
  obtain ⟨fuel, ⟨parts, rest⟩, hr⟩ := h
  obtain ⟨tail, rfl⟩ := List.head?_eq_some_iff.1 hhead
  have hskip : skipBlanks (before ++ '(' :: tail) = '(' :: tail :=
    skipBlanks_eq_cons_iff.2 ⟨before, hb, rfl, by decide⟩
  cases fuel with
  | zero => cases hr
  | succ fuel =>
    rcases readMoreParts_succ_eq_ok_iff.1 hr with
      ⟨cs', f, more, inner, heq, hf, hmore, -⟩ | ⟨hno, -⟩
    · rw [hskip] at heq
      obtain ⟨-, rfl⟩ := List.cons.inj heq
      exact ⟨fuel, f, inner, _, hf, hmore⟩
    · exact absurd hskip (hno tail)

namespace StopsRightly

variable {fuel : Nat} (H : StopsRightly fuel) {cs : List Char} {e : Failure}
include H

theorem readParts_stops (hlen : cs.length + 1 < fuel) (h : readParts fuel cs = .error e) :
    Reader.parts.Stops cs e.left := by
  rcases readParts_eq_error h with hmore | ⟨rfl, hno⟩
  · refine (H.parts cs e hlen hmore).within [] ?_ ?_
    · rintro text ⟨parts, hs⟩
      exact ⟨[], parts, by simpa using hs⟩
    · rintro cs' - ⟨fuel', r, hr⟩
      exact ⟨fuel', r, (readParts_eq_ok_iff.1 hr).1⟩
  · obtain ⟨before, hb, hcs⟩ := exists_blanks cs
    have hstops := (Reader.stops_at_mark hno).within (S := .parts) before ?_ ?_
    · rwa [← hcs] at hstops
    · rintro _ rfl
      exact ⟨['a', '=', ')'], _, by simpa using SpellsParts.one hb spellsFilter_a⟩
    · rintro cs' hhead ⟨fuel', ⟨parts, rest⟩, hr⟩
      obtain ⟨hmore, hne⟩ := readParts_eq_ok_iff.1 hr
      cases fuel' with
      | zero => cases hmore
      | succ fuel' =>
        rcases readMoreParts_succ_eq_ok_iff.1 hmore with ⟨cs'', _, _, _, hcs'', -⟩ | ⟨-, hnil, -⟩
        · rw [skipBlanks_append_of_head? hb hhead] at hcs''
          exact ⟨cs'', hcs''⟩
        · exact absurd hnil hne

theorem readBody_stops (hhead : ∀ c ∈ cs.head?, Text.isBlank c = false) (hlen : cs.length < fuel)
    (h : readBody fuel cs = .error e) : Reader.inside.Stops cs e.left := by
  unfold readBody at h
  split at h
  · exact combines_all.parts_stop (H.readParts_stops hlen (map_eq_error_iff.1 h))
  · exact combines_any.parts_stop (H.readParts_stops hlen (map_eq_error_iff.1 h))
  · rename_i cs
    have hskip : (skipBlanks cs).length ≤ cs.length := (List.dropWhile_sublist _).length_le
    simp only [List.length_cons] at hlen
    exact negation_stops (H.filter _ e (by omega) (map_eq_error_iff.1 h))
  · cases h
    refine Reader.stops_at_end ['a', '=', ')'] ⟨.item "a" (.equal ""), fun before hb => ?_⟩
    simpa using SpellsFilter.item hb spellsItem_a
  · rename_i hall hany hnegation hempty
    obtain ⟨c, cs, rfl, hmark⟩ := exists_unmarked hall hany hnegation hempty
    refine (readItem_stops hmark (hhead c rfl) h).within [] ?_ ?_
    · rintro text ⟨name, asked, hs⟩
      exact ⟨[')'], .item name asked, fun before hb => by simpa using SpellsFilter.item hb hs⟩
    · rintro cs' hcs' ⟨fuel', f, after, rest, -, hbody⟩
      obtain ⟨tail, rfl⟩ := List.head?_eq_some_iff.1 hcs'
      exact ⟨_, (readBody_item hmark fuel' tail).symm.trans hbody⟩

theorem succ_filter (cs : List Char) (e : Failure) (hlen : cs.length < fuel + 1)
    (h : readFilter (fuel + 1) cs = .error e) : Reader.filter.Stops cs e.left := by
  rw [readFilter_succ] at h
  rcases bind_eq_error_iff.1 h with htake | ⟨cs', htake, hinside⟩
  · refine (take_stops htake).within [] ?_ ?_
    · rintro _ rfl
      exact ⟨['a', '=', ')'], _, spellsFilter_a⟩
    · rintro cs' - ⟨fuel', ⟨f, rest⟩, hr⟩
      obtain ⟨text, rfl, hs⟩ := (readsSoundly fuel').filter _ _ _ hr
      obtain ⟨tail, rfl⟩ := hs.begins
      exact ⟨tail ++ rest, rfl⟩
  · rw [take_eq_ok_iff.1 htake] at hlen ⊢
    have hskip : (skipBlanks cs').length ≤ cs'.length := (List.dropWhile_sublist _).length_le
    simp only [List.length_cons] at hlen
    have hstops : Reader.inside.Stops (skipBlanks cs') e.left := by
      rcases bind_eq_error_iff.1 hinside with hbody | ⟨⟨f, rest⟩, hbody, hclose⟩
      · exact H.readBody_stops isBlank_of_head?_skipBlanks (by omega) hbody
      · rcases bind_eq_error_iff.1 hclose with hclose | ⟨_, -, hr⟩
        · exact readBody_close_stops isBlank_of_head?_skipBlanks hbody hclose
        · cases hr
    obtain ⟨before, hb, hcs⟩ := exists_blanks cs'
    have hfilter := hstops.within (S := .filter) ('(' :: before) ?_ ?_
    · rwa [List.cons_append, ← hcs] at hfilter
    · rintro text ⟨f, hs⟩
      exact ⟨[], f, by simpa using hs before hb⟩
    · rintro cs'' hhead ⟨fuel', ⟨f, rest⟩, hr⟩
      cases fuel' with
      | zero => cases hr
      | succ fuel' =>
        obtain ⟨_, after, heq, ha, hbody⟩ := readFilter_succ_eq_ok_iff.1 hr
        obtain ⟨-, rfl⟩ := List.cons.inj heq
        refine ⟨fuel', f, after, rest, ha, ?_⟩
        rw [← hbody]
        exact congrArg _ (skipBlanks_append_of_head? hb hhead).symm

theorem succ_parts (cs : List Char) (e : Failure) (hlen : cs.length + 1 < fuel + 1)
    (h : readMoreParts (fuel + 1) cs = .error e) : Reader.moreParts.Stops cs e.left := by
  obtain ⟨cs', hcs, hread⟩ := readMoreParts_succ_eq_error h
  obtain ⟨before, hb, rfl, -⟩ := skipBlanks_eq_cons_iff.1 hcs
  simp only [List.length_append, List.length_cons] at hlen
  rcases hread with hfilter | ⟨f, inner, hf, hmore⟩
  · have hstop := H.filter _ e (by simp only [List.length_cons]; omega) hfilter
    refine hstop.within before ?_ ?_
    · rintro text ⟨f, hs⟩
      exact ⟨[], [f], by simpa using SpellsParts.one hb hs⟩
    · intro cs'' hhead hcs''
      obtain ⟨fuel', f, inner, _, hf, -⟩ := moreParts_accepts hb hhead hcs''
      exact ⟨fuel', _, hf⟩
  · obtain ⟨text, htext, hs⟩ := (readsSoundly fuel).filter _ _ _ hf
    obtain ⟨tail, rfl⟩ := hs.begins
    have hsize := congrArg List.length htext
    simp only [List.length_append, List.length_cons] at hsize
    have hstop := (H.parts inner e (by omega) hmore).within (S := .moreParts)
      (before ++ '(' :: tail) ?_ ?_
    · rwa [List.append_assoc, ← htext] at hstop
    · rintro texts ⟨parts, hrest⟩
      exact ⟨[], f :: parts, by simpa using SpellsParts.more hb hs hrest⟩
    · intro cs'' hhead hcs''
      rw [List.append_assoc] at hcs''
      obtain ⟨fuel', f', inner', r, hf', hmore'⟩ := moreParts_accepts hb rfl hcs''
      rw [hs.rest_unique hf'] at hmore'
      exact ⟨fuel', r, hmore'⟩

end StopsRightly

theorem stopsRightly (fuel : Nat) : StopsRightly fuel := by
  -- The readers call each other with less fuel, so both are dealt with at once.
  induction fuel with
  | zero =>
    constructor
    · intro cs e hlen
      omega
    · intro cs e hlen
      omega
  | succ fuel ih => exact ⟨ih.succ_filter, ih.succ_parts⟩

namespace Reader

def text : Reader where
  Spelled text := ∃ f, Spells text f
  Accepts cs := ∃ f, Spells cs f

def ending : Reader where
  Spelled text := text = []
  Accepts cs := cs = []

end Reader

theorem readText_stops {cs : List Char} {e : Failure} (h : readText cs = .error e) :
    Reader.text.Stops cs e.left := by
  obtain ⟨before, hb, hcs⟩ := exists_blanks cs
  have hskip : (skipBlanks cs).length ≤ cs.length := (List.dropWhile_sublist _).length_le
  have haccepts : ∀ cs', cs'.head? = (skipBlanks cs).head? → Reader.text.Accepts (before ++ cs') →
      ∃ fuel f after, Blanks after ∧ readFilter fuel cs' = .ok (f, after) := by
    rintro cs' hhead ⟨f, hs⟩
    obtain ⟨⟨f, after⟩, hread, hend⟩ := bind_eq_ok_iff.1 (readText_eq_ok_iff.2 hs)
    rw [skipBlanks_append_of_head? hb hhead] at hread
    refine ⟨_, f, after, ?_, hread⟩
    dsimp only at hend
    split at hend
    · rename_i hafter
      exact skipBlanks_eq_nil_iff.1 hafter
    · cases hend
  rcases bind_eq_error_iff.1 h with hread | ⟨⟨f, rest⟩, hread, hend⟩
  · have hstop := ((stopsRightly _).filter _ e (by omega) hread).within (S := .text) before ?_ ?_
    · rwa [← hcs] at hstop
    · rintro text ⟨f, hs⟩
      exact ⟨[], f, .text hb hs .nil⟩
    · intro cs' hhead hcs'
      obtain ⟨fuel, f, after, -, hf⟩ := haccepts cs' hhead hcs'
      exact ⟨fuel, _, hf⟩
  · obtain ⟨text, htext, hs⟩ := (readsSoundly _).filter _ _ _ hread
    obtain ⟨after, ha, hrest⟩ := exists_blanks rest
    dsimp only at hend
    split at hend
    · cases hend
    · rename_i c tail htail
      cases hend
      have hending : Reader.ending.Stops (c :: tail) (c :: tail) := by
        refine Reader.stops_at_once [] rfl ?_
        rintro _ _ ⟨⟩ rest' ⟨⟩
      have hstop := hending.within (S := .text) (before ++ (text ++ after)) ?_ ?_
      · have hwhole : cs = before ++ (text ++ after) ++ c :: tail := by
          rw [hcs, htext, hrest, htail]
          simp
        rwa [hwhole]
      · rintro _ rfl
        exact ⟨[], f, by simpa using Spells.text hb hs ha⟩
      · intro cs' hhead hcs'
        obtain ⟨rest', rfl⟩ := hs.begins
        rw [List.append_assoc, List.append_assoc] at hcs'
        obtain ⟨fuel, g, after', ha', hf⟩ := haccepts _ (by rw [htext]; rfl) hcs'
        rw [hs.rest_unique hf] at ha'
        have hskip : skipBlanks (after ++ cs') = cs' :=
          skipBlanks_append_of_head? ha (hhead.trans (congrArg List.head? htail.symm))
        exact hskip.symm.trans (skipBlanks_eq_nil_iff.2 ha')

def Viable (cs : List Char) : Prop :=
  ∃ more s, parse (String.ofList (cs ++ more)) = .ok s

/-- The longest beginning of a text that something can follow which makes a selector of it. -/
structure LongestViable (text read : List Char) : Prop where
  isPrefix : read <+: text
  viable : Viable read
  longest : ∀ cs, cs <+: text → Viable cs → cs.length ≤ read.length

theorem viable_iff {cs : List Char} : Viable cs ↔ ∃ more f, Spells (cs ++ more) f := by
  constructor
  · rintro ⟨more, s, hs⟩
    have hread := (parse_eq_ok_iff.1 hs).1
    rw [String.toList_ofList] at hread
    exact ⟨more, s.root, readText_eq_ok_iff.1 hread⟩
  · rintro ⟨more, f, hs⟩
    refine ⟨more, ⟨_, f⟩, parse_eq_ok_iff.2 ⟨?_, rfl⟩⟩
    rw [String.toList_ofList]
    exact readText_eq_ok_iff.2 hs

theorem LongestViable.unique {text read read' : List Char} (h : LongestViable text read)
    (h' : LongestViable text read') : read = read' := by
  have hlength := Nat.le_antisymm (h'.longest read h.isPrefix h.viable)
    (h.longest read' h'.isPrefix h'.viable)
  exact (List.prefix_of_prefix_length_le h.isPrefix h'.isPrefix hlength.le).eq_of_length hlength

theorem readText_longestViable {cs : List Char} {e : Failure} (h : readText cs = .error e) :
    ∃ read, cs = read ++ e.left ∧ LongestViable cs read := by
  obtain ⟨read, hcs, ⟨more, f, hs⟩, hrefuses⟩ := readText_stops h
  refine ⟨read, hcs, hcs ▸ List.prefix_append read e.left, viable_iff.2 ⟨more, f, hs⟩, ?_⟩
  intro cs' hprefix hviable
  by_contra hlonger
  have hread : read <+: cs' :=
    List.prefix_of_prefix_length_le (hcs ▸ List.prefix_append read e.left) hprefix (by omega)
  obtain ⟨tail, rfl⟩ := hread
  obtain ⟨behind, hbehind⟩ := hprefix
  cases tail with
  | nil => simp at hlonger
  | cons c tail =>
    have hleft : e.left = c :: (tail ++ behind) := by
      rw [hcs, List.append_assoc] at hbehind
      exact (List.append_cancel_left hbehind).symm
    obtain ⟨more', f', hs'⟩ := viable_iff.1 hviable
    refine hrefuses c _ hleft (tail ++ more') ⟨f', ?_⟩
    simpa using hs'

theorem byteSize_append (cs cs' : List Char) :
    byteSize (cs ++ cs') = byteSize cs + byteSize cs' := by
  induction cs with
  | nil => exact (Nat.zero_add _).symm
  | cons c cs ih =>
    change c.utf8Size + byteSize (cs ++ cs') = c.utf8Size + byteSize cs + byteSize cs'
    omega

/-- A text that is no selector is read to the end of its longest beginning that something can follow
which makes a selector of it, and the position of the error is the size of that beginning; but where
no operator follows a name, the character in its place counts too. -/
theorem parse_error_position {text : String} {e : SelectorError} (h : parse text = .error e) :
    ∃ read, LongestViable text.toList read ∧ read ++ e.cause.passed <+: text.toList ∧
      e.position = byteSize (read ++ e.cause.passed) := by
  rw [parse] at h
  split at h
  · cases h
  · rename_i failure hread
    cases h
    obtain ⟨read, htext, hlongest⟩ := readText_longestViable hread
    have hsplit : text.toList = read ++ failure.cause.passed ++ failure.rest := by
      rw [List.append_assoc]
      exact htext
    refine ⟨read, hlongest, ⟨failure.rest, hsplit.symm⟩, ?_⟩
    have hsize := congrArg byteSize hsplit
    rw [byteSize_append] at hsize
    dsimp only
    omega

theorem bare_attribute_position : parse "(é)" = .error ⟨.noOperator ')' "é", 4⟩ ∧
    ∃ read, LongestViable "(é)".toList read ∧ read ++ [')'] <+: "(é)".toList ∧
      4 = byteSize (read ++ [')']) := by
  have hparse : parse "(é)" = .error ⟨.noOperator ')' "é", 4⟩ := by decide +kernel
  exact ⟨hparse, parse_error_position hparse⟩

/-- The position is not always the size of that beginning: of `(a)` the closing parenthesis is at
fault, and the position is behind it. -/
theorem not_every_position_viable : ¬ ∀ (text : String) (e : SelectorError), parse text = .error e →
    ∃ read, LongestViable text.toList read ∧ e.position = byteSize read := by
  intro h
  have hparse : parse "(a)" = .error ⟨.noOperator ')' "a", 3⟩ := by decide +kernel
  have hread : readText "(a)".toList = .error ⟨.noOperator ')' "a", []⟩ := by decide +kernel
  obtain ⟨read, hlongest, hposition⟩ := h "(a)" _ hparse
  obtain ⟨read', htext, hlongest'⟩ := readText_longestViable hread
  have hread' : ['(', 'a'] = read' := List.append_cancel_right htext
  rw [hlongest.unique hlongest', ← hread'] at hposition
  exact absurd hposition (by decide)

end Reconciliation.Selector
