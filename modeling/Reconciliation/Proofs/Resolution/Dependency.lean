import Mathlib.Data.List.Nodup
import Mathlib.Data.Set.Basic
import Mathlib.Logic.Equiv.Fin.Basic
import Mathlib.Logic.Relation
import Mathlib.Order.Bounds.Basic
import Mathlib.Order.WellFounded
import Reconciliation.Resolution.Dependency

/-! # The members that support one another

Taking out broken nodes one after the other, in whatever order the agenda brings them up, leaves the
largest set of members that find what they require in the context or in one another.
-/
namespace Reconciliation

namespace Site

/-- A requirement of a node is met by the context or by an extension among `present` other than the
node itself. The application is node 0 and is no extension, so nothing is excluded for it. -/
def Meets (s : Site) (present : Set Nat) (node : Nat) (sel : Selector) : Prop :=
  metByContext sel s.properties s.runtime = true ∨
    ∃ i ∈ present, ∃ m, s.members[i]? = some m ∧ m.kind = .extension ∧ i + 1 ≠ node ∧
      sel.accepts m.properties = true

/-- Each member of the set finds what it requires in the context or in another one of the set. -/
def Supported (s : Site) (present : Set Nat) : Prop :=
  ∀ i ∈ present, ∃ m, s.members[i]? = some m ∧ ∀ sel ∈ m.requires, s.Meets present (i + 1) sel

def survivors (s : Site) (o : Outcome) : Set Nat :=
  {i | i < s.members.length ∧ o.isRemoved i = false}

theorem Meets.mono {s : Site} {small large : Set Nat} {node : Nat} {sel : Selector}
    (h : s.Meets small node sel) (hs : small ⊆ large) : s.Meets large node sel := by
  rcases h with h | ⟨i, hi, hm⟩
  · exact Or.inl h
  · exact Or.inr ⟨i, hs hi, hm⟩

theorem Supported.selectors_met {s : Site} {present : Set Nat} (h : s.Supported present) {i : Nat}
    (hi : i ∈ present) : ∀ sel ∈ s.selectorsOf (i + 1), s.Meets present (i + 1) sel := by
  obtain ⟨m, hm, hr⟩ := h i hi
  simpa [selectorsOf, hm] using hr

theorem mem_selectorsOf_succ {s : Site} {i : Nat} {sel : Selector}
    (h : sel ∈ s.selectorsOf (i + 1)) : ∃ m, s.members[i]? = some m ∧ sel ∈ m.requires := by
  cases hm : s.members[i]? with
  | none => simp [selectorsOf, hm] at h
  | some m => exact ⟨m, rfl, by simpa [selectorsOf, hm] using h⟩

theorem mem_extensionNodes {s : Site} {node n : Nat} {p : Properties} :
    (n, p) ∈ s.extensionNodes node ↔
      ∃ i m, n = i + 1 ∧ s.members[i]? = some m ∧ m.kind = .extension ∧ n ≠ node ∧
        p = m.properties := by
  simp only [extensionNodes, List.mem_filterMap, Prod.exists, List.mem_zipIdx_iff_getElem?]
  constructor
  · rintro ⟨m, i, hm, h⟩
    split at h
    · rename_i hk
      obtain ⟨rfl, rfl⟩ := Prod.mk.inj (Option.some.inj h)
      exact ⟨i, m, rfl, hm, hk.1, hk.2, rfl⟩
    · exact absurd h (by simp)
  · rintro ⟨i, m, rfl, hm, hk, hn, rfl⟩
    exact ⟨m, i, hm, by simp [hk, hn]⟩

theorem mem_providers {s : Site} {node n : Nat} {sel : Selector} :
    n ∈ (s.requirement node sel).providers ↔
      metByContext sel s.properties s.runtime = false ∧
        ∃ i m, n = i + 1 ∧ s.members[i]? = some m ∧ m.kind = .extension ∧ n ≠ node ∧
          sel.accepts m.properties = true := by
  cases hc : metByContext sel s.properties s.runtime with
  | true => simp [requirement, hc]
  | false =>
    simp only [requirement, hc, Bool.false_eq_true, if_false, List.mem_map, List.mem_filter,
      Prod.exists, mem_extensionNodes, true_and]
    constructor
    · rintro ⟨n, p, ⟨⟨i, m, rfl, hm, hk, hn, rfl⟩, ha⟩, rfl⟩
      exact ⟨i, m, rfl, hm, hk, hn, ha⟩
    · rintro ⟨i, m, rfl, hm, hk, hn, ha⟩
      exact ⟨i + 1, m.properties, ⟨⟨i, m, rfl, hm, hk, hn, rfl⟩, ha⟩, rfl⟩

end Site

structure Sweep where
  alive : List Nat
  agenda : List Nat
  outcome : Outcome
  deriving DecidableEq, Repr

def Sweep.present (w : Sweep) : Set Nat := {i | i + 1 ∈ w.alive}

theorem Sweep.mem_present {w : Sweep} {i : Nat} : i ∈ w.present ↔ i + 1 ∈ w.alive := Iff.rfl

namespace Graph

def start (g : Graph) : Sweep :=
  ⟨List.range g.requirements.length, List.range g.requirements.length, .intact⟩

inductive Look (g : Graph) : Sweep → Sweep → Prop where
  | gone {alive node rest o} (h : node ∉ alive) :
      Look g ⟨alive, node :: rest, o⟩ ⟨alive, rest, o⟩
  | sound {alive node rest o} (h : node ∈ alive) (hb : g.firstBroken node alive = none) :
      Look g ⟨alive, node :: rest, o⟩ ⟨alive, rest, o⟩
  | broken {alive node rest o sel} (h : node ∈ alive)
      (hb : g.firstBroken node alive = some sel) :
      Look g ⟨alive, node :: rest, o⟩
        ⟨alive.erase node, (g.dependents node).filter (alive.erase node).contains ++ rest,
          o.add node sel⟩

/-- A look takes a node out or, failing that, shortens the agenda. -/
theorem Look.decreases {g : Graph} {v w : Sweep} (h : g.Look v w) :
    Prod.Lex (· < ·) (· < ·) (w.alive.length, w.agenda.length)
      (v.alive.length, v.agenda.length) := by
  cases h with
  | gone _ => exact Prod.Lex.right _ (by simp)
  | sound _ _ => exact Prod.Lex.right _ (by simp)
  | broken h _ =>
    refine Prod.Lex.left _ _ ?_
    have := List.length_pos_of_mem h
    simp only [List.length_erase_of_mem h]
    omega

theorem look_wellFounded (g : Graph) : WellFounded fun w v : Sweep => g.Look v w := by
  have hw : WellFounded (Prod.Lex (· < · : Nat → Nat → Prop) (· < · : Nat → Nat → Prop)) :=
    WellFounded.prod_lex wellFounded_lt wellFounded_lt
  exact Subrelation.wf Look.decreases
    (InvImage.wf (fun w : Sweep => (w.alive.length, w.agenda.length)) hw)

theorem settle_reached (g : Graph) (alive agenda : List Nat) (o : Outcome) :
    ∃ w, Relation.ReflTransGen g.Look ⟨alive, agenda, o⟩ w ∧ w.agenda = [] ∧
      w.outcome = g.settle alive agenda o := by
  fun_induction g.settle alive agenda o with
  | case1 alive o => exact ⟨_, .refl, rfl, rfl⟩
  | case2 alive o node rest h hb ih =>
    obtain ⟨w, hr, ha, ho⟩ := ih
    exact ⟨w, .head (.sound h hb) hr, ha, ho⟩
  | case3 alive o node rest h sel hb _ _ ih =>
    obtain ⟨w, hr, ha, ho⟩ := ih
    exact ⟨w, .head (.broken h hb) hr, ha, ho⟩
  | case4 alive o node rest h ih =>
    obtain ⟨w, hr, ha, ho⟩ := ih
    exact ⟨w, .head (.gone h) hr, ha, ho⟩

theorem settle_of_sound {g : Graph} {alive agenda : List Nat} {o : Outcome}
    (h : ∀ node ∈ agenda, g.firstBroken node alive = none) : g.settle alive agenda o = o := by
  fun_induction g.settle alive agenda o with
  | case1 => rfl
  | case2 alive o node rest _ hb ih => exact ih fun n hn => h n (by simp [hn])
  | case3 alive o node rest _ sel hb _ _ ih => exact absurd hb (by simp [h node])
  | case4 alive o node rest _ ih => exact ih fun n hn => h n (by simp [hn])

end Graph

namespace Site

theorem requirementsOf_ofSite (s : Site) (node : Nat) :
    (Graph.ofSite s).requirementsOf node = s.requirements node := by
  by_cases h : node < s.members.length + 1
  · simp [Graph.requirementsOf, Graph.ofSite, nodes, h]
  · obtain ⟨i, rfl⟩ := Nat.exists_eq_succ_of_ne_zero (show node ≠ 0 by omega)
    have hm : s.members[i]? = none := List.getElem?_eq_none (by omega)
    simp [Graph.requirementsOf, Graph.ofSite, nodes, requirements, selectorsOf, h, hm]

theorem isBroken_requirement {s : Site} {node : Nat} {sel : Selector} {alive : List Nat} :
    Graph.isBroken (s.requirement node sel) alive = true ↔
      ¬ s.Meets {i | i + 1 ∈ alive} node sel := by
  have hp : (s.requirement node sel).providers.any alive.contains = true ↔
      metByContext sel s.properties s.runtime = false ∧
        ∃ i ∈ {i | i + 1 ∈ alive}, ∃ m, s.members[i]? = some m ∧ m.kind = .extension ∧
          i + 1 ≠ node ∧ sel.accepts m.properties = true := by
    simp only [List.any_eq_true, mem_providers, List.contains_iff_mem, Set.mem_ofPred_eq]
    constructor
    · rintro ⟨n, ⟨hc, i, m, rfl, hm⟩, ha⟩
      exact ⟨hc, i, ha, m, hm⟩
    · rintro ⟨hc, i, ha, m, hm⟩
      exact ⟨i + 1, ⟨hc, i, m, rfl, hm⟩, ha⟩
  have ha : (s.requirement node sel).ambient = metByContext sel s.properties s.runtime := rfl
  cases hc : metByContext sel s.properties s.runtime with
  | true => simp [Graph.isBroken, Meets, ha, hc]
  | false =>
    simp only [hc, true_and] at hp
    simp only [Graph.isBroken, Meets, ha, hc, Bool.not_false, Bool.true_and, Bool.false_eq_true,
      false_or, ← hp, Bool.not_eq_true', Bool.not_eq_true]

theorem firstBroken_eq_none_iff {s : Site} {node : Nat} {alive : List Nat} :
    (Graph.ofSite s).firstBroken node alive = none ↔
      ∀ sel ∈ s.selectorsOf node, s.Meets {i | i + 1 ∈ alive} node sel := by
  simp only [Graph.firstBroken, requirementsOf_ofSite, requirements, Option.map_eq_none_iff,
    List.find?_eq_none, List.forall_mem_map, isBroken_requirement, not_not]

theorem of_firstBroken {s : Site} {node : Nat} {alive : List Nat} {sel : Selector}
    (h : (Graph.ofSite s).firstBroken node alive = some sel) :
    sel ∈ s.selectorsOf node ∧ ¬ s.Meets {i | i + 1 ∈ alive} node sel := by
  obtain ⟨r, hr, rfl⟩ := Option.map_eq_some_iff.1 h
  rw [requirementsOf_ofSite] at hr
  obtain ⟨sel, hs, rfl⟩ := List.mem_map.1 (List.mem_of_find?_eq_some hr)
  have hb := List.find?_some (p := fun r => Graph.isBroken r alive) hr
  exact ⟨hs, isBroken_requirement.1 hb⟩

theorem mem_dependents {s : Site} {node n : Nat} (h : n ≤ s.members.length) :
    n ∈ (Graph.ofSite s).dependents node ↔
      ∃ sel ∈ s.selectorsOf n, node ∈ (s.requirement n sel).providers := by
  simp only [Graph.dependents, List.mem_flatMap, Prod.exists, List.mem_zipIdx_iff_getElem?,
    List.mem_map, List.mem_filter, List.contains_iff_mem]
  have hg : (Graph.ofSite s).requirements[n]? = some (s.requirements n) := by
    simp [Graph.ofSite, nodes, show n < s.members.length + 1 by omega]
  constructor
  · rintro ⟨rs, i, hi, r, ⟨hr, hn⟩, rfl⟩
    obtain rfl := Option.some.inj (hg.symm.trans hi)
    obtain ⟨sel, hs, rfl⟩ := List.mem_map.1 hr
    exact ⟨sel, hs, hn⟩
  · rintro ⟨sel, hs, hn⟩
    exact ⟨_, n, hg, _, ⟨List.mem_map_of_mem hs, hn⟩, rfl⟩

end Site

namespace Outcome

@[simp] theorem add_zero_application (o : Outcome) (sel : Selector) :
    (o.add 0 sel).application = some sel := rfl

@[simp] theorem add_zero_removed (o : Outcome) (sel : Selector) :
    (o.add 0 sel).removed = o.removed := rfl

@[simp] theorem add_succ_application (o : Outcome) (i : Nat) (sel : Selector) :
    (o.add (i + 1) sel).application = o.application := rfl

@[simp] theorem add_succ_removed (o : Outcome) (i : Nat) (sel : Selector) :
    (o.add (i + 1) sel).removed = o.removed ++ [(i, sel)] := rfl

theorem isRemoved_iff {o : Outcome} {i : Nat} :
    o.isRemoved i = true ↔ i ∈ o.removed.map Prod.fst := by
  simp [isRemoved]

end Outcome

structure Sweep.Invariant (s : Site) (w : Sweep) : Prop where
  nodup : w.alive.Nodup
  /-- Every node is either left or reported. -/
  application_left : 0 ∈ w.alive ↔ w.outcome.application = none
  member_left : ∀ i, i + 1 ∈ w.alive ↔ i < s.members.length ∧ i ∉ w.outcome.removed.map Prod.fst
  removed_once : (w.outcome.removed.map Prod.fst).Nodup
  /-- A node that misses something has yet to be looked at. -/
  rest_sound : ∀ node ∈ w.alive, node ∉ w.agenda →
    ∀ sel ∈ s.selectorsOf node, s.Meets w.present node sel
  application_cause : ∀ sel, w.outcome.application = some sel →
    sel ∈ s.selectorsOf 0 ∧ ¬ s.Meets w.present 0 sel
  member_cause : ∀ i sel, (i, sel) ∈ w.outcome.removed →
    sel ∈ s.selectorsOf (i + 1) ∧ ¬ s.Meets w.present (i + 1) sel
  /-- Nobody who belongs to a supported set is ever taken out. -/
  keeps_supported : ∀ group, s.Supported group → group ⊆ w.present

namespace Sweep

theorem start_invariant (s : Site) : Invariant s (Graph.ofSite s).start := by
  have hl : (Graph.ofSite s).requirements.length = s.members.length + 1 := by
    simp [Graph.ofSite, Site.nodes]
  constructor
  · exact List.nodup_range
  · simp [Graph.start, hl, Outcome.intact]
  · intro i
    simp [Graph.start, hl, Outcome.intact]
  · simp [Graph.start, Outcome.intact]
  · intro node ha hn
    exact absurd ha hn
  · intro sel h
    simp [Graph.start, Outcome.intact] at h
  · intro i sel h
    simp [Graph.start, Outcome.intact] at h
  · intro group hg i hi
    obtain ⟨m, hm, -⟩ := hg i hi
    have := (List.getElem?_eq_some_iff.1 hm).1
    simp [mem_present, Graph.start, hl, this]

theorem meets_erase {s : Site} {alive : List Nat} {node n : Nat} {sel : Selector}
    (h : s.Meets {i | i + 1 ∈ alive} n sel) (hp : node ∉ (s.requirement n sel).providers) :
    s.Meets {i | i + 1 ∈ alive.erase node} n sel := by
  cases hc : metByContext sel s.properties s.runtime with
  | true => exact Or.inl hc
  | false =>
    rcases h with h | ⟨i, hi, m, hm, hk, hn, ha⟩
    · exact absurd h (by simp [hc])
    · have hne : i + 1 ≠ node := by
        rintro rfl
        exact hp (Site.mem_providers.2 ⟨hc, i, m, rfl, hm, hk, hn, ha⟩)
      exact Or.inr ⟨i, (List.mem_erase_of_ne hne).2 hi, m, hm, hk, hn, ha⟩

theorem Invariant.node_le {s : Site} {w : Sweep} (hw : Invariant s w) {node : Nat}
    (h : node ∈ w.alive) : node ≤ s.members.length := by
  cases node with
  | zero => omega
  | succ i => exact ((hw.member_left i).1 h).1

/-- Nodes that are looked at in vain, or are gone already, can be struck off the agenda. -/
theorem Invariant.strike {s : Site} {alive rest : List Nat} {node : Nat} {o : Outcome}
    (hw : Invariant s ⟨alive, node :: rest, o⟩)
    (h : node ∈ alive → ∀ sel ∈ s.selectorsOf node, s.Meets {i | i + 1 ∈ alive} node sel) :
    Invariant s ⟨alive, rest, o⟩ := by
  refine { hw with rest_sound := ?_ }
  intro n ha hr
  by_cases hn : n = node
  · subst hn
    exact h ha
  · exact hw.rest_sound n ha (by simp [hn, hr])

theorem Invariant.remove {s : Site} {alive rest : List Nat} {node : Nat} {o : Outcome}
    {sel : Selector} (hw : Invariant s ⟨alive, node :: rest, o⟩) (h : node ∈ alive)
    (hs : sel ∈ s.selectorsOf node) (hm : ¬ s.Meets {i | i + 1 ∈ alive} node sel) :
    Invariant s ⟨alive.erase node,
      ((Graph.ofSite s).dependents node).filter (alive.erase node).contains ++ rest,
      o.add node sel⟩ := by
  have hnd : alive.Nodup := hw.nodup
  have hsub : {i | i + 1 ∈ alive.erase node} ⊆ {i | i + 1 ∈ alive} :=
    fun i hi => List.mem_of_mem_erase hi
  have hmiss : ¬ s.Meets {i | i + 1 ∈ alive.erase node} node sel := fun hx => hm (hx.mono hsub)
  refine ⟨hnd.erase node, ?_, ?_, ?_, ?_, ?_, ?_, ?_⟩
  · cases node with
    | zero => simp [hnd.mem_erase_iff]
    | succ i => simpa [hnd.mem_erase_iff] using hw.application_left
  · intro j
    have hj := hw.member_left j
    cases node with
    | zero => simpa [hnd.mem_erase_iff] using hj
    | succ i =>
      simp only [hnd.mem_erase_iff, Outcome.add_succ_removed, List.map_append, List.mem_append]
      simp only at hj
      simp only [hj]
      grind
  · cases node with
    | zero => exact hw.removed_once
    | succ i =>
      have hi := ((hw.member_left i).1 h).2
      simp only [Outcome.add_succ_removed, List.map_append]
      refine List.nodup_append.2 ⟨hw.removed_once, List.nodup_singleton _, ?_⟩
      intro a ha b hb hab
      obtain rfl := List.mem_singleton.1 hb
      exact hi (hab ▸ ha)
  · intro n ha hr
    obtain ⟨hne, hn⟩ := (hnd.mem_erase_iff).1 ha
    simp only [List.mem_append, List.mem_filter, List.contains_iff_mem, not_or, not_and] at hr
    intro sel' hs'
    -- Not on the new agenda, it was not on the old one either, and the node did not serve it.
    have hmet := hw.rest_sound n hn (by simp [hne, hr.2]) sel' hs'
    refine meets_erase hmet fun hp => ?_
    exact hr.1 ((Site.mem_dependents (hw.node_le hn)).2 ⟨sel', hs', hp⟩) ha
  · intro sel' hc
    cases node with
    | zero =>
      obtain rfl := Option.some.inj hc
      exact ⟨hs, hmiss⟩
    | succ i =>
      obtain ⟨h₁, h₂⟩ := hw.application_cause sel' hc
      exact ⟨h₁, fun hx => h₂ (hx.mono hsub)⟩
  · intro j sel' hc
    have old : (j, sel') ∈ o.removed → sel' ∈ s.selectorsOf (j + 1) ∧
        ¬ s.Meets {i | i + 1 ∈ alive.erase node} (j + 1) sel' := fun hc => by
      obtain ⟨h₁, h₂⟩ := hw.member_cause j sel' hc
      exact ⟨h₁, fun hx => h₂ (hx.mono hsub)⟩
    cases node with
    | zero => exact old hc
    | succ i =>
      rcases List.mem_append.1 hc with hc | hc
      · exact old hc
      · obtain ⟨rfl, rfl⟩ := Prod.mk.inj (List.mem_singleton.1 hc)
        exact ⟨hs, hmiss⟩
  · intro group hg i hi
    have ha := hw.keeps_supported group hg hi
    refine (List.mem_erase_of_ne ?_).2 ha
    rintro rfl
    exact hm ((hg.selectors_met hi sel hs).mono (hw.keeps_supported group hg))

theorem look_preserves_invariant {s : Site} {v w : Sweep} (h : (Graph.ofSite s).Look v w)
    (hv : Invariant s v) : Invariant s w := by
  cases h with
  | gone h => exact hv.strike fun ha => absurd ha h
  | sound h hb => exact hv.strike fun _ => Site.firstBroken_eq_none_iff.1 hb
  | broken h hb => exact hv.remove h (Site.of_firstBroken hb).1 (Site.of_firstBroken hb).2

theorem run_preserves_invariant {s : Site} {v w : Sweep}
    (h : Relation.ReflTransGen (Graph.ofSite s).Look v w) (hv : Invariant s v) :
    Invariant s w := by
  induction h with
  | refl => exact hv
  | tail _ h ih => exact look_preserves_invariant h ih

end Sweep

/-- The members that stay are the largest supported set, and whoever does not stay is named once,
with a requirement of its own that none of those who stay can meet. -/
structure Site.Settled (s : Site) (o : Outcome) : Prop where
  greatest : IsGreatest {group | s.Supported group} (s.survivors o)
  removed_once : (o.removed.map Prod.fst).Nodup
  application_broken :
    o.application.isSome = true ↔ ∃ sel ∈ s.requires, ¬ s.Meets (s.survivors o) 0 sel
  application_cause : ∀ sel, o.application = some sel →
    sel ∈ s.requires ∧ ¬ s.Meets (s.survivors o) 0 sel
  member_cause : ∀ i sel, (i, sel) ∈ o.removed → ∃ m, s.members[i]? = some m ∧
    sel ∈ m.requires ∧ ¬ s.Meets (s.survivors o) (i + 1) sel

namespace Site

/-- At the end of a run nobody is left to look at, so nobody misses anything. -/
theorem settled_of_invariant {s : Site} {w : Sweep} (hw : w.Invariant s) (ha : w.agenda = []) :
    s.Settled w.outcome := by
  have hsound : ∀ node ∈ w.alive, ∀ sel ∈ s.selectorsOf node, s.Meets w.present node sel :=
    fun node hn => hw.rest_sound node hn (by simp [ha])
  have hpresent : s.survivors w.outcome = w.present := by
    ext i
    rw [Sweep.mem_present, hw.member_left i, ← Outcome.isRemoved_iff, Bool.not_eq_true]
    exact Iff.rfl
  refine ⟨?_, hw.removed_once, ?_, ?_, ?_⟩
  · rw [hpresent]
    refine ⟨?_, fun group hg => hw.keeps_supported group hg⟩
    intro i hi
    have hlt := ((hw.member_left i).1 hi).1
    refine ⟨s.members[i], List.getElem?_eq_getElem hlt, ?_⟩
    simpa [selectorsOf, List.getElem?_eq_getElem hlt] using hsound (i + 1) hi
  · rw [hpresent]
    constructor
    · intro h
      obtain ⟨sel, hsel⟩ := Option.isSome_iff_exists.1 h
      exact ⟨sel, hw.application_cause sel hsel⟩
    · rintro ⟨sel, hsel, hm⟩
      by_contra hn
      have h0 := hw.application_left.2 (Option.not_isSome_iff_eq_none.1 hn)
      exact hm (hsound 0 h0 sel hsel)
  · rw [hpresent]
    exact hw.application_cause
  · rw [hpresent]
    intro i sel h
    obtain ⟨hs, hm⟩ := hw.member_cause i sel h
    obtain ⟨m, hi, hr⟩ := mem_selectorsOf_succ hs
    exact ⟨m, hi, hr, hm⟩

theorem resolve_settled (s : Site) : s.Settled (Graph.ofSite s).resolve := by
  obtain ⟨w, hr, ha, ho⟩ := (Graph.ofSite s).settle_reached (Graph.ofSite s).start.alive
    (Graph.ofSite s).start.agenda .intact
  have hw := Sweep.run_preserves_invariant hr (Sweep.start_invariant s)
  have hs := settled_of_invariant hw ha
  rwa [ho] at hs

theorem mem_survivors_intact {s : Site} {i : Nat} :
    i ∈ s.survivors .intact ↔ i < s.members.length := by
  simp [survivors, Outcome.isRemoved, Outcome.intact]

theorem any_siblings {s : Site} {skip : Option Nat} {sel : Selector} :
    (s.siblings skip).any sel.accepts = true ↔
      ∃ i ∈ s.survivors .intact, ∃ m, s.members[i]? = some m ∧ m.kind = .extension ∧
        some i ≠ skip ∧ sel.accepts m.properties = true := by
  simp only [siblings, List.any_eq_true, List.mem_filterMap, Prod.exists,
    List.mem_zipIdx_iff_getElem?, mem_survivors_intact]
  constructor
  · rintro ⟨p, ⟨m, i, hm, h⟩, ha⟩
    split at h
    · rename_i hk
      obtain rfl := Option.some.inj h
      exact ⟨i, (List.getElem?_eq_some_iff.1 hm).1, m, hm, hk.2, hk.1, ha⟩
    · exact absurd h (by simp)
  · rintro ⟨i, -, m, hm, hk, hs, ha⟩
    exact ⟨m.properties, ⟨m, i, hm, if_pos ⟨hs, hk⟩⟩, ha⟩

/-- Skipping a member among the siblings is leaving out its node among the providers. -/
theorem requirementsMet_iff {s : Site} {skip : Option Nat} {node : Nat}
    (hn : ∀ i, some i ≠ skip ↔ i + 1 ≠ node) {selectors : List Selector} :
    requirementsMet selectors (s.siblings skip) s.properties s.runtime = true ↔
      ∀ sel ∈ selectors, s.Meets (s.survivors .intact) node sel := by
  simp only [requirementsMet, List.all_eq_true, Bool.or_eq_true, any_siblings, hn, Meets]

theorem isIntact_iff {s : Site} : s.isIntact = true ↔ ∀ node ≤ s.members.length,
    ∀ sel ∈ s.selectorsOf node, s.Meets (s.survivors .intact) node sel := by
  have application : requirementsMet s.requires (s.siblings none) s.properties s.runtime = true ↔
      ∀ sel ∈ s.requires, s.Meets (s.survivors .intact) 0 sel :=
    requirementsMet_iff (by simp)
  have member : ∀ (i : Nat) (m : Member),
      requirementsMet m.requires (s.siblings (some i)) s.properties s.runtime = true ↔
        ∀ sel ∈ m.requires, s.Meets (s.survivors .intact) (i + 1) sel :=
    fun i m => requirementsMet_iff (by simp)
  simp only [isIntact, Bool.and_eq_true, List.all_eq_true, Prod.forall,
    List.mem_zipIdx_iff_getElem?, application, member]
  constructor
  · rintro ⟨ha, hm⟩ node hn sel hs
    cases node with
    | zero => exact ha sel hs
    | succ i =>
      obtain ⟨m, hi, hr⟩ := mem_selectorsOf_succ hs
      exact hm m i hi sel hr
  · intro h
    refine ⟨h 0 (Nat.zero_le _), ?_⟩
    intro m i hi
    simpa [selectorsOf, hi] using h (i + 1) (List.getElem?_eq_some_iff.1 hi).1

/-- Where nothing is broken to begin with, the loop looks at every node once and takes none out. -/
theorem resolve_of_isIntact {s : Site} (h : s.isIntact = true) :
    (Graph.ofSite s).resolve = .intact := by
  have hl : (Graph.ofSite s).requirements.length = s.members.length + 1 := by
    simp [Graph.ofSite, nodes]
  refine Graph.settle_of_sound fun node hn => firstBroken_eq_none_iff.2 ?_
  have hall : s.survivors .intact ⊆
      {i | i + 1 ∈ List.range (Graph.ofSite s).requirements.length} := by
    intro i hi
    simpa [hl] using mem_survivors_intact.1 hi
  intro sel hs
  exact (isIntact_iff.1 h node (by simpa [hl, Nat.lt_succ_iff] using hn) sel hs).mono hall

theorem isIntact_of_resolve {s : Site} (h : (Graph.ofSite s).resolve = .intact) :
    s.isIntact = true := by
  have hs := h ▸ s.resolve_settled
  rw [isIntact_iff]
  intro node hn sel hsel
  cases node with
  | zero =>
    by_contra hm
    simpa [Outcome.intact] using hs.application_broken.2 ⟨sel, hsel, hm⟩
  | succ i => exact hs.greatest.1.selectors_met (mem_survivors_intact.2 hn) sel hsel

theorem check_settled (s : Site) : s.Settled s.check := by
  unfold check
  split
  · rename_i h
    exact resolve_of_isIntact h ▸ s.resolve_settled
  · exact s.resolve_settled

/-- The short way gives what the graph gives, down to the causes and their order, and it is taken
exactly where the graph has nothing to take out. -/
theorem check_eq_resolve (s : Site) :
    s.check = (Graph.ofSite s).resolve ∧
      (s.isIntact = true ↔ (Graph.ofSite s).resolve = .intact) := by
  refine ⟨?_, resolve_of_isIntact, isIntact_of_resolve⟩
  unfold check
  split
  · rename_i h
    exact (resolve_of_isIntact h).symm
  · rfl

/-- Sites that differ in the places of their members have the same supported sets. -/
theorem Supported.relabel {s t : Site} (hp : t.properties = s.properties)
    (hr : t.runtime = s.runtime) (place : Fin t.members.length ≃ Fin s.members.length)
    (hm : ∀ i : Fin t.members.length, t.members[(i : Nat)]? = s.members[(place i : Nat)]?)
    {group : Set Nat} (h : s.Supported group) :
    t.Supported {i | ∃ hi : i < t.members.length, (place ⟨i, hi⟩ : Nat) ∈ group} := by
  rintro i ⟨hi, hg⟩
  obtain ⟨m, hs, hreq⟩ := h _ hg
  refine ⟨m, (hm ⟨i, hi⟩).trans hs, ?_⟩
  intro sel hsel
  rcases hreq sel hsel with hc | ⟨j, hj, m', hs', hk, hne, ha⟩
  · exact Or.inl (by rwa [hp, hr])
  · obtain ⟨k, hkj⟩ := place.surjective ⟨j, (List.getElem?_eq_some_iff.1 hs').1⟩
    have hkv : (place k : Nat) = j := by rw [hkj]
    refine Or.inr ⟨k, ⟨k.isLt, hkv ▸ hj⟩, m', (hm k).trans (hkv ▸ hs'), hk, ?_, ha⟩
    intro hki
    have hk' : k = ⟨i, hi⟩ := Fin.ext (Nat.succ_inj.1 hki)
    exact hne (by rw [← hkv, hk'])

theorem survivors_relabel {s t : Site} (hp : t.properties = s.properties)
    (hr : t.runtime = s.runtime) (place : Fin t.members.length ≃ Fin s.members.length)
    (hm : ∀ i : Fin t.members.length, t.members[(i : Nat)]? = s.members[(place i : Nat)]?)
    (i : Fin t.members.length) :
    (i : Nat) ∈ t.survivors (Graph.ofSite t).resolve ↔
      (place i : Nat) ∈ s.survivors (Graph.ofSite s).resolve := by
  constructor
  · intro hi
    have hm' : ∀ k : Fin s.members.length, s.members[(k : Nat)]? =
        t.members[(place.symm k : Nat)]? := by
      intro k
      rw [hm (place.symm k), Equiv.apply_symm_apply]
    have h := t.resolve_settled.greatest.1.relabel hp.symm hr.symm place.symm hm'
    exact s.resolve_settled.greatest.2 h ⟨(place i).isLt, by simpa using hi⟩
  · intro hi
    have h := s.resolve_settled.greatest.1.relabel hp hr place hm
    exact t.resolve_settled.greatest.2 h ⟨i.isLt, hi⟩

def reorder (s : Site) (σ : Equiv.Perm (Fin s.members.length)) : Site :=
  { s with members := List.ofFn fun i => s.members[σ i] }

/-- Looking at nodes until the agenda is empty comes to an end, whatever is broken, and the end is
the outcome of `resolve`. This outcome is settled, and listing the members in another order leaves
the same ones in place. -/
theorem resolve_computes_greatest_supported (s : Site) :
    (WellFounded fun w v : Sweep => (Graph.ofSite s).Look v w) ∧
    (∃ w, Relation.ReflTransGen (Graph.ofSite s).Look (Graph.ofSite s).start w ∧
      w.agenda = [] ∧ w.outcome = (Graph.ofSite s).resolve) ∧
    s.Settled (Graph.ofSite s).resolve ∧
    ∀ (σ : Equiv.Perm (Fin s.members.length)) (i : Fin s.members.length),
      (i : Nat) ∈ (s.reorder σ).survivors (Graph.ofSite (s.reorder σ)).resolve ↔
        (σ i : Nat) ∈ s.survivors (Graph.ofSite s).resolve := by
  refine ⟨(Graph.ofSite s).look_wellFounded, ?_, s.resolve_settled, ?_⟩
  · exact (Graph.ofSite s).settle_reached _ _ _
  · intro σ i
    have hl : (s.reorder σ).members.length = s.members.length := List.length_ofFn
    let place : Fin (s.reorder σ).members.length ≃ Fin s.members.length := (finCongr hl).trans σ
    have hm : ∀ k : Fin (s.reorder σ).members.length,
        (s.reorder σ).members[(k : Nat)]? = s.members[(place k : Nat)]? := by
      intro k
      have hk : (k : Nat) < s.members.length := hl ▸ k.isLt
      rw [List.getElem?_eq_getElem (place k).isLt]
      simp only [reorder, List.getElem?_ofFn, hk, dif_pos]
      rfl
    exact survivors_relabel (s := s) (t := s.reorder σ) rfl rfl place hm ((finCongr hl).symm i)

end Site

end Reconciliation
