import Reconciliation.Proofs.Dictionary
import Reconciliation.Selector.Matching

/-! # The case of names says nothing

Where no two keys of a map are the same up to ASCII case, an attribute finds the one key that has
its letters. So the case of keys and attributes does not decide whether a filter holds.
-/
namespace Reconciliation

theorem Text.sameLetters_iff {s t : String} :
    Text.sameLetters s t = true ↔ Text.foldCase s = Text.foldCase t :=
  beq_iff_eq

namespace Properties

def Unambiguous (p : Properties) : Prop :=
  (p.entries.map fun e => Text.foldCase e.1).Nodup

instance (p : Properties) : Decidable p.Unambiguous :=
  inferInstanceAs (Decidable (List.Nodup _))

def Recased (p q : Properties) : Prop :=
  ∃ spell : String → String, (∀ k, Text.sameLetters k (spell k) = true) ∧
    q.entries.Perm (p.entries.map fun e => (spell e.1, e.2))

/-- Where nothing is ambiguous, a value is found just if its key has the letters that are looked
for. -/
theorem Unambiguous.get?_eq_some_iff {p : Properties} (h : p.Unambiguous) {k : String}
    {v : Value} :
    p.get? k = some v ↔ ∃ e ∈ p.entries, Text.foldCase e.1 = Text.foldCase k ∧ e.2 = v := by
  unfold get?
  cases hexact : p.entry? k with
  | some w =>
    have hw : (k, w) ∈ p.entries := Dictionary.get?_eq_some_iff.1 hexact
    constructor
    · intro hv
      exact ⟨(k, w), hw, rfl, Option.some.inj hv⟩
    · rintro ⟨e, he, hk, rfl⟩
      rw [List.inj_on_of_nodup_map h he hw hk]
  | none =>
    constructor
    · intro hv
      obtain ⟨e, he, rfl⟩ := Option.map_eq_some_iff.1 hv
      have hk := List.find?_some he
      exact ⟨e, List.mem_of_find?_eq_some he, Text.sameLetters_iff.1 hk, rfl⟩
    · rintro ⟨e, he, hk, rfl⟩
      cases hfound : p.entries.find? fun e => Text.sameLetters e.1 k with
      | none => exact absurd (Text.sameLetters_iff.2 hk) (List.find?_eq_none.1 hfound e he)
      | some e' =>
        have hk' := List.find?_some hfound
        have hm := List.mem_of_find?_eq_some hfound
        have heq : e' = e :=
          List.inj_on_of_nodup_map h hm he ((Text.sameLetters_iff.1 hk').trans hk.symm)
        rw [heq]
        rfl

theorem Unambiguous.recased {p q : Properties} (h : p.Unambiguous) (hq : p.Recased q) :
    q.Unambiguous := by
  obtain ⟨spell, hspell, hperm⟩ := hq
  have hletters : (p.entries.map fun e => (spell e.1, e.2)).map (fun e => Text.foldCase e.1) =
      p.entries.map fun e => Text.foldCase e.1 := by
    rw [List.map_map]
    apply List.map_congr_left
    intro e _
    exact (Text.sameLetters_iff.1 (hspell e.1)).symm
  unfold Unambiguous
  rw [(hperm.map _).nodup_iff, hletters]
  exact h

theorem Recased.get?_eq {p q : Properties} (h : p.Recased q) (hp : p.Unambiguous) {k k' : String}
    (hk : Text.sameLetters k k' = true) : q.get? k' = p.get? k := by
  have hq := hp.recased h
  obtain ⟨spell, hspell, hperm⟩ := h
  have hletters : ∀ key, Text.foldCase (spell key) = Text.foldCase k' ↔
      Text.foldCase key = Text.foldCase k := by
    intro key
    rw [← Text.sameLetters_iff.1 (hspell key), Text.sameLetters_iff.1 hk]
  ext v
  rw [hq.get?_eq_some_iff, hp.get?_eq_some_iff]
  constructor
  · rintro ⟨e, he, hl, hv⟩
    obtain ⟨e', he', rfl⟩ := List.mem_map.1 (hperm.mem_iff.1 he)
    exact ⟨e', he', (hletters e'.1).1 hl, hv⟩
  · rintro ⟨e, he, hl, hv⟩
    exact ⟨_, hperm.mem_iff.2 (List.mem_map_of_mem he), (hletters e.1).2 hl, hv⟩

end Properties

namespace Filter

mutual

/-- The second filter is the first one with its attributes spelled anew, each wherever it stands. -/
inductive Recased : Filter → Filter → Prop where
  | all {parts parts' : List Filter} (h : RecasedParts parts parts') :
      Recased (.all parts) (.all parts')
  | any {parts parts' : List Filter} (h : RecasedParts parts parts') :
      Recased (.any parts) (.any parts')
  | negation {part part' : Filter} (h : Recased part part') :
      Recased (.negation part) (.negation part')
  | item {name name' : String} (h : Text.sameLetters name name' = true) (asked : Condition) :
      Recased (.item name asked) (.item name' asked)

inductive RecasedParts : List Filter → List Filter → Prop where
  | nil : RecasedParts [] []
  | cons {f f' : Filter} {parts parts' : List Filter} (h : Recased f f')
      (hparts : RecasedParts parts parts') : RecasedParts (f :: parts) (f' :: parts')

end

section

variable {p q : Properties}

mutual

theorem Recased.holds_eq (hp : p.Unambiguous) (hq : p.Recased q) {f f' : Filter} :
    Recased f f' → f'.holds q = f.holds p
  | .all h => by
    simp only [holds, holdsAll_eq]
    exact h.all_eq hp hq
  | .any h => by
    simp only [holds, holdsAny_eq]
    exact h.any_eq hp hq
  | .negation h => by
    rw [holds, holds, h.holds_eq hp hq]
  | .item h asked => by
    rw [holds, holds, hq.get?_eq hp h]

theorem RecasedParts.all_eq (hp : p.Unambiguous) (hq : p.Recased q) {parts parts' : List Filter} :
    RecasedParts parts parts' → parts'.all (holds q) = parts.all (holds p)
  | .nil => rfl
  | .cons h hparts => by
    rw [List.all_cons, List.all_cons, h.holds_eq hp hq, hparts.all_eq hp hq]

theorem RecasedParts.any_eq (hp : p.Unambiguous) (hq : p.Recased q) {parts parts' : List Filter} :
    RecasedParts parts parts' → parts'.any (holds q) = parts.any (holds p)
  | .nil => rfl
  | .cons h hparts => by
    rw [List.any_cons, List.any_cons, h.holds_eq hp hq, hparts.any_eq hp hq]

end

end

end Filter

namespace Selector

/-- Spelling attributes and keys anew, each in its own way, changes no answer. -/
theorem accepts_recased {p q : Properties} (hp : p.Unambiguous) (hq : p.Recased q) {s t : Selector}
    (h : s.root.Recased t.root) : t.accepts q = s.accepts p :=
  h.holds_eq hp hq

example : (Filter.item "a" (.equal "1")).holds (.ofList [("A", .text "2"), ("a", .text "1")]) ≠
    (Filter.item "A" (.equal "1")).holds (.ofList [("A", .text "2"), ("a", .text "1")]) := by
  decide +kernel

/-- The keys change places here, and one attribute is spelled in two ways. -/
theorem shouted_labels_accepted :
    let labels := Properties.ofList [("zone", .text "north"), ("Age", .integer 3)]
    let shouted := Properties.ofList [("Zone", .text "north"), ("age", .integer 3)]
    let s : Selector := ⟨"(&(ZONE=n*)(|(age>=4)(!(Zone=south))))",
      .all [.item "ZONE" (.substring (some "n") [] none),
        .any [.item "age" (.atLeast "4"), .negation (.item "Zone" (.equal "south"))]]⟩
    let t : Selector := ⟨"(&(zone=n*)(|(AGE>=4)(!(zONE=south))))",
      .all [.item "zone" (.substring (some "n") [] none),
        .any [.item "AGE" (.atLeast "4"), .negation (.item "zONE" (.equal "south"))]]⟩
    labels.Unambiguous ∧ labels.Recased shouted ∧ s.root.Recased t.root ∧
      labels.entries.map (·.1) = ["Age", "zone"] ∧ shouted.entries.map (·.1) = ["Zone", "age"] ∧
      t.accepts shouted = true := by
  intro labels shouted s t
  have hlabels : labels.Unambiguous := by decide +kernel
  have hshouted : labels.Recased shouted := by
    refine ⟨fun k => if k = "zone" then "Zone" else if k = "Age" then "age" else k, ?_, ?_⟩
    · intro k
      by_cases hz : k = "zone"
      · subst hz
        decide +kernel
      · by_cases ha : k = "Age"
        · subst ha
          decide +kernel
        · simp only [hz, ha, if_false]
          exact Text.sameLetters_iff.2 rfl
    · decide +kernel
  have hst : s.root.Recased t.root := by
    have hsame : ∀ {a b : String}, Text.sameLetters a b = true → ∀ asked,
        Filter.Recased (.item a asked) (.item b asked) := fun h asked => .item h asked
    exact .all (.cons (hsame (by decide +kernel) _) (.cons (.any (.cons
      (hsame (by decide +kernel) _) (.cons (.negation (hsame (by decide +kernel) _)) .nil))) .nil))
  refine ⟨hlabels, hshouted, hst, by decide +kernel, by decide +kernel, ?_⟩
  rw [accepts_recased hlabels hshouted hst]
  decide +kernel

end Selector

end Reconciliation
