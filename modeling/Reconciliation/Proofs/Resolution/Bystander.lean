import Reconciliation.Proofs.Resolution.Dependency

/-! # A member that serves nobody

A resource meets no requirement, so the loop on a site without it looks at the other nodes in the
same order, and each of them breaks at the same selector or stays.
-/
namespace Reconciliation

/-- Where an entry of the list without place `p` stands in the whole list. -/
def skip (p i : Nat) : Nat :=
  if i < p then i else i + 1

section Skip

variable {p i j : Nat}

theorem skip_ne (p i : Nat) : skip p i ≠ p := by
  unfold skip
  split <;> omega

theorem skip_injective (p : Nat) : Function.Injective (skip p) := by
  intro i j h
  unfold skip at h
  split at h <;> split at h <;> omega

@[simp] theorem skip_succ (p i : Nat) : skip (p + 1) (i + 1) = skip p i + 1 := by
  by_cases h : i < p <;> simp [skip, h]

@[simp] theorem skip_succ_zero (p : Nat) : skip (p + 1) 0 = 0 := by
  simp [skip]

theorem exists_skip_eq (h : j ≠ p) : ∃ i, skip p i = j := by
  by_cases hj : j < p
  · exact ⟨j, by simp [skip, hj]⟩
  · refine ⟨j - 1, ?_⟩
    unfold skip
    split <;> omega

theorem getElem?_eraseIdx_skip {α : Type} (xs : List α) (p i : Nat) :
    (xs.eraseIdx p)[i]? = xs[skip p i]? := by
  rw [List.getElem?_eraseIdx, skip]
  split <;> rfl

theorem range_filter_skip {n : Nat} (h : p ≤ n) :
    (List.range (n + 1)).filter (· != p) = (List.range n).map (skip p) := by
  induction n with
  | zero =>
    obtain rfl : p = 0 := by omega
    rfl
  | succ n ih =>
    rw [List.range_succ, List.filter_append]
    by_cases hp : p ≤ n
    · have hlast : skip p n = n + 1 := by
        unfold skip
        split <;> omega
      have hne : n + 1 ≠ p := by omega
      rw [ih hp, List.range_succ, List.map_append]
      simp [hne, hlast]
    · obtain rfl : p = n + 1 := by omega
      have hall : (List.range (n + 1)).filter (· != n + 1) = List.range (n + 1) := by
        refine List.filter_eq_self.2 fun i hi => ?_
        have := List.mem_range.1 hi
        simp only [bne_iff_ne]
        omega
      have hsame : (List.range (n + 1)).map (skip (n + 1)) = List.range (n + 1) := by
        conv_rhs => rw [← List.map_id (List.range (n + 1))]
        refine List.map_congr_left fun i hi => ?_
        simp [skip, List.mem_range.1 hi]
      rw [hall, hsame]
      simp

end Skip

def ListedBut (p : Nat) (xs ys : List Nat) : Prop :=
  xs.filter (· != p) = ys.map (skip p)

namespace ListedBut

variable {p n : Nat} {xs ys zs ws : List Nat}

theorem mem_iff (h : ListedBut p xs ys) : skip p n ∈ xs ↔ n ∈ ys := by
  have hx : skip p n ∈ xs.filter (· != p) ↔ skip p n ∈ xs := by
    simp [List.mem_filter, skip_ne]
  rw [← hx, h, List.mem_map_of_injective (skip_injective p)]

theorem nil (h : ListedBut p [] ys) : ys = [] :=
  List.map_eq_nil_iff.1 (Eq.symm h)

theorem of_cons_self (h : ListedBut p (p :: xs) ys) : ListedBut p xs ys := by
  simpa [ListedBut] using h

theorem of_cons (h : ListedBut p (skip p n :: xs) ys) :
    ∃ zs, ys = n :: zs ∧ ListedBut p xs zs := by
  have hne : (skip p n != p) = true := by simpa using skip_ne p n
  have hcons : (skip p n :: xs).filter (· != p) = skip p n :: xs.filter (· != p) :=
    List.filter_cons_of_pos hne
  rw [ListedBut, hcons, eq_comm, List.map_eq_cons_iff] at h
  obtain ⟨m, zs, rfl, hm, hzs⟩ := h
  exact ⟨zs, by rw [skip_injective p hm], hzs.symm⟩

theorem append (h : ListedBut p xs ys) (h' : ListedBut p zs ws) :
    ListedBut p (xs ++ zs) (ys ++ ws) := by
  rw [ListedBut, List.filter_append, List.map_append, h, h']

theorem erase (h : ListedBut p xs ys) (n : Nat) :
    ListedBut p (xs.erase (skip p n)) (ys.erase n) := by
  rw [ListedBut, ← List.erase_filter, h, List.map_erase (skip_injective p)]

theorem erase_self (h : ListedBut p xs ys) : ListedBut p (xs.erase p) ys := by
  rw [ListedBut, ← List.erase_filter, List.erase_of_not_mem (by simp), h]

theorem filter {f g : Nat → Bool} (h : ListedBut p xs ys)
    (hfg : ∀ n, f (skip p n) = g n) : ListedBut p (xs.filter f) (ys.filter g) := by
  have hcomp : f ∘ skip p = g := funext hfg
  rw [ListedBut, List.filter_comm, h, List.filter_map, hcomp]

end ListedBut

namespace Graph

section Loop

variable {g : Graph} {alive rest : List Nat} {node : Nat} {sel : Selector} {o : Outcome}

theorem settle_nil (g : Graph) (alive : List Nat) (o : Outcome) : g.settle alive [] o = o := by
  rw [settle]

theorem settle_of_gone (h : node ∉ alive) :
    g.settle alive (node :: rest) o = g.settle alive rest o := by
  rw [settle, dif_neg h]

theorem settle_of_unbroken (h : node ∈ alive) (hb : g.firstBroken node alive = none) :
    g.settle alive (node :: rest) o = g.settle alive rest o := by
  rw [settle, dif_pos h]
  simp only [hb]

theorem settle_of_broken (h : node ∈ alive) (hb : g.firstBroken node alive = some sel) :
    g.settle alive (node :: rest) o = g.settle (alive.erase node)
      ((g.dependents node).filter (alive.erase node).contains ++ rest) (o.add node sel) := by
  rw [settle, dif_pos h]
  simp only [hb]

end Loop

end Graph

structure Outcome.Forgets (p : Nat) (o o' : Outcome) : Prop where
  application : o'.application = o.application
  removed : o.removed.filter (fun r => r.1 != p) = o'.removed.map fun r => (skip p r.1, r.2)

namespace Outcome.Forgets

variable {p : Nat} {o o' : Outcome}

theorem add (h : o.Forgets p o') (n : Nat) (sel : Selector) :
    (o.add (skip (p + 1) n) sel).Forgets p (o'.add n sel) := by
  cases n with
  | zero => exact ⟨by simp, by simpa using h.removed⟩
  | succ i =>
    refine ⟨by simpa using h.application, ?_⟩
    have hne : (skip p i != p) = true := by simpa using skip_ne p i
    rw [skip_succ, Outcome.add_succ_removed, Outcome.add_succ_removed, List.filter_append,
      List.map_append, h.removed]
    simp [hne]

theorem add_self (h : o.Forgets p o') (sel : Selector) : (o.add (p + 1) sel).Forgets p o' := by
  refine ⟨h.application, ?_⟩
  rw [Outcome.add_succ_removed, List.filter_append, h.removed]
  simp

theorem isRemoved_skip (h : o.Forgets p o') (i : Nat) :
    o.isRemoved (skip p i) = o'.isRemoved i := by
  rw [Bool.eq_iff_iff, Outcome.isRemoved_iff, Outcome.isRemoved_iff]
  have hmem : skip p i ∈ (o.removed.filter fun r => r.1 != p).map Prod.fst ↔
      skip p i ∈ o.removed.map Prod.fst := by
    simp only [List.mem_map, List.mem_filter, bne_iff_ne]
    constructor
    · rintro ⟨r, ⟨hr, -⟩, hi⟩
      exact ⟨r, hr, hi⟩
    · rintro ⟨r, hr, hi⟩
      exact ⟨r, ⟨hr, hi ▸ skip_ne p i⟩, hi⟩
  rw [← hmem, h.removed, List.map_map]
  simp [(skip_injective p).eq_iff]

end Outcome.Forgets

namespace Site

def drop (s : Site) (p : Nat) : Site :=
  { s with members := s.members.eraseIdx p }

theorem drop_members_getElem? (s : Site) (p i : Nat) :
    (s.drop p).members[i]? = s.members[skip p i]? :=
  getElem?_eraseIdx_skip s.members p i

theorem selectorsOf_drop (s : Site) (p n : Nat) :
    (s.drop p).selectorsOf n = s.selectorsOf (skip (p + 1) n) := by
  cases n with
  | zero => rw [skip_succ_zero]; rfl
  | succ i => rw [skip_succ, selectorsOf, selectorsOf, drop_members_getElem?]

theorem mem_providers_drop {s : Site} {p node n : Nat} {sel : Selector} :
    n ∈ ((s.drop p).requirement node sel).providers ↔
      skip (p + 1) n ∈ (s.requirement (skip (p + 1) node) sel).providers := by
  rw [mem_providers, mem_providers]
  refine and_congr Iff.rfl ?_
  constructor
  · rintro ⟨i, m, rfl, hm, hkind, hne, haccepts⟩
    refine ⟨skip p i, m, skip_succ p i, ?_, hkind, ?_, haccepts⟩
    · rwa [drop_members_getElem?] at hm
    · exact fun h => hne (skip_injective (p + 1) h)
  · rintro ⟨i, m, hi, hm, hkind, hne, haccepts⟩
    cases n with
    | zero => simp at hi
    | succ j =>
      obtain rfl : skip p j = i := by simpa using hi
      refine ⟨j, m, rfl, ?_, hkind, fun h => hne (h ▸ rfl), haccepts⟩
      rwa [drop_members_getElem?]

theorem dependents_ofSite (s : Site) (node : Nat) : (Graph.ofSite s).dependents node =
    s.nodes.flatMap fun n => ((s.requirements n).filter fun r => r.providers.contains node).map
      fun _ => n := by
  have hzip : s.nodes.zipIdx = s.nodes.map fun n => (n, n) := by
    refine List.ext_getElem? fun i => ?_
    by_cases hi : i < s.members.length + 1 <;> simp [nodes, hi]
  rw [Graph.dependents, Graph.ofSite, List.zipIdx_map, hzip, List.map_map, List.flatMap_map]
  rfl

theorem filter_flatMap_blocks {q : Nat → Bool} {f : Nat → List Nat}
    (hf : ∀ n, ∀ m ∈ f n, m = n) (ns : List Nat) :
    (ns.flatMap f).filter q = (ns.filter q).flatMap f := by
  induction ns with
  | nil => rfl
  | cons n ns ih =>
    rw [List.flatMap_cons, List.filter_append, ih]
    by_cases hn : q n = true
    · have hblock : (f n).filter q = f n := List.filter_eq_self.2 fun m hm => hf n m hm ▸ hn
      rw [hblock, List.filter_cons_of_pos hn, List.flatMap_cons]
    · have hblock : (f n).filter q = [] := List.filter_eq_nil_iff.2 fun m hm => hf n m hm ▸ hn
      rw [hblock, List.filter_cons_of_neg hn, List.nil_append]

section Bystander

variable {s : Site} {p : Nat} {m : Member}

theorem nodes_drop (hm : s.members[p]? = some m) : ListedBut (p + 1) s.nodes (s.drop p).nodes := by
  have hlt := (List.getElem?_eq_some_iff.1 hm).1
  have hlen : (s.drop p).members.length + 1 = s.members.length := by
    rw [drop, List.length_eraseIdx_of_lt hlt]
    omega
  rw [ListedBut, nodes, nodes, hlen]
  exact range_filter_skip (by omega)

theorem bystander_not_provider (hm : s.members[p]? = some m) (hk : m.kind = .resource)
    (node : Nat) (sel : Selector) : p + 1 ∉ (s.requirement node sel).providers := by
  intro hp
  obtain ⟨-, i, m', hi, hm', hkind, -⟩ := mem_providers.1 hp
  obtain rfl : p = i := by omega
  obtain rfl := Option.some.inj (hm.symm.trans hm')
  rw [hk] at hkind
  cases hkind

theorem isBroken_drop (hm : s.members[p]? = some m) (hk : m.kind = .resource)
    {alive alive' : List Nat} (ha : ListedBut (p + 1) alive alive') (node : Nat) (sel : Selector) :
    Graph.isBroken ((s.drop p).requirement node sel) alive' =
      Graph.isBroken (s.requirement (skip (p + 1) node) sel) alive := by
  have hany : ((s.drop p).requirement node sel).providers.any alive'.contains =
      (s.requirement (skip (p + 1) node) sel).providers.any alive.contains := by
    rw [Bool.eq_iff_iff, List.any_eq_true, List.any_eq_true]
    constructor
    · rintro ⟨n, hn, hc⟩
      refine ⟨skip (p + 1) n, mem_providers_drop.1 hn, ?_⟩
      rw [List.contains_iff_mem] at hc ⊢
      exact ha.mem_iff.2 hc
    · rintro ⟨n, hn, hc⟩
      have hne : n ≠ p + 1 := by
        rintro rfl
        exact bystander_not_provider hm hk _ sel hn
      obtain ⟨n', rfl⟩ := exists_skip_eq hne
      refine ⟨n', mem_providers_drop.2 hn, ?_⟩
      rw [List.contains_iff_mem] at hc ⊢
      exact ha.mem_iff.1 hc
  rw [Graph.isBroken, Graph.isBroken, hany]
  rfl

theorem firstBroken_drop (hm : s.members[p]? = some m) (hk : m.kind = .resource)
    {alive alive' : List Nat} (ha : ListedBut (p + 1) alive alive') (node : Nat) :
    (Graph.ofSite (s.drop p)).firstBroken node alive' =
      (Graph.ofSite s).firstBroken (skip (p + 1) node) alive := by
  have hbroken : (fun r => Graph.isBroken r alive') ∘ (s.drop p).requirement node =
      (fun r => Graph.isBroken r alive) ∘ s.requirement (skip (p + 1) node) :=
    funext fun sel => isBroken_drop hm hk ha node sel
  simp only [Graph.firstBroken, requirementsOf_ofSite, requirements, List.find?_map, hbroken,
    Option.map_map, selectorsOf_drop]
  rfl

theorem dependents_bystander (hm : s.members[p]? = some m) (hk : m.kind = .resource) :
    (Graph.ofSite s).dependents (p + 1) = [] := by
  rw [dependents_ofSite, List.flatMap_eq_nil_iff]
  intro n _
  rw [List.map_eq_nil_iff, List.filter_eq_nil_iff]
  intro r hr hc
  obtain ⟨sel, -, rfl⟩ := List.mem_map.1 hr
  exact bystander_not_provider hm hk n sel (List.contains_iff_mem.1 hc)

theorem dependents_drop (hm : s.members[p]? = some m) (n : Nat) :
    ListedBut (p + 1) ((Graph.ofSite s).dependents (skip (p + 1) n))
      ((Graph.ofSite (s.drop p)).dependents n) := by
  have hblock : ∀ k, ((((s.drop p).requirements k).filter fun r => r.providers.contains n).map
      fun _ => skip (p + 1) k) = ((s.requirements (skip (p + 1) k)).filter fun r =>
        r.providers.contains (skip (p + 1) n)).map fun _ => skip (p + 1) k := by
    intro k
    have hcontains : (fun r : Requirement => r.providers.contains n) ∘ (s.drop p).requirement k =
        (fun r : Requirement => r.providers.contains (skip (p + 1) n)) ∘
          s.requirement (skip (p + 1) k) := by
      funext sel
      rw [Function.comp_apply, Function.comp_apply, Bool.eq_iff_iff, List.contains_iff_mem,
        List.contains_iff_mem, mem_providers_drop]
    simp only [requirements, List.filter_map, List.map_map, hcontains, selectorsOf_drop]
    rfl
  rw [ListedBut, dependents_ofSite, dependents_ofSite, filter_flatMap_blocks, nodes_drop hm,
    List.flatMap_map, List.map_flatMap]
  · simp only [List.map_map, Function.comp_def, hblock]
  · intro k j hj
    obtain ⟨-, -, rfl⟩ := List.mem_map.1 hj
    rfl

/-- The loop on the whole site keeps step with the loop on the site without the bystander. -/
theorem settle_drop (hm : s.members[p]? = some m) (hk : m.kind = .resource)
    {alive agenda alive' agenda' : List Nat} {o o' : Outcome}
    (ha : ListedBut (p + 1) alive alive') (hagenda : ListedBut (p + 1) agenda agenda')
    (ho : o.Forgets p o') : ((Graph.ofSite s).settle alive agenda o).Forgets p
      ((Graph.ofSite (s.drop p)).settle alive' agenda' o') := by
  fun_induction (Graph.ofSite s).settle alive agenda o generalizing alive' agenda' o' with
  | case1 alive o =>
    rw [hagenda.nil, Graph.settle_nil]
    exact ho
  | case2 alive o node rest h hb ih =>
    by_cases hn : node = p + 1
    · subst hn
      exact ih ha hagenda.of_cons_self ho
    · obtain ⟨n, rfl⟩ := exists_skip_eq hn
      obtain ⟨rest', rfl, hrest⟩ := hagenda.of_cons
      rw [Graph.settle_of_unbroken (ha.mem_iff.1 h) ((firstBroken_drop hm hk ha n).trans hb)]
      exact ih ha hrest ho
  | case3 alive o node rest h sel hb =>
    rename_i ih
    by_cases hn : node = p + 1
    · subst hn
      rw [dependents_bystander hm hk] at ih ⊢
      exact ih ha.erase_self hagenda.of_cons_self (ho.add_self sel)
    · obtain ⟨n, rfl⟩ := exists_skip_eq hn
      obtain ⟨rest', rfl, hrest⟩ := hagenda.of_cons
      rw [Graph.settle_of_broken (ha.mem_iff.1 h) ((firstBroken_drop hm hk ha n).trans hb)]
      have hleft := ha.erase n
      refine ih hleft (((dependents_drop hm n).filter fun k => ?_).append hrest) (ho.add n sel)
      rw [Bool.eq_iff_iff, List.contains_iff_mem, List.contains_iff_mem]
      exact hleft.mem_iff
  | case4 alive o node rest h ih =>
    by_cases hn : node = p + 1
    · subst hn
      exact ih ha hagenda.of_cons_self ho
    · obtain ⟨n, rfl⟩ := exists_skip_eq hn
      obtain ⟨rest', rfl, hrest⟩ := hagenda.of_cons
      rw [Graph.settle_of_gone fun hmem => h (ha.mem_iff.2 hmem)]
      exact ih ha hrest ho

theorem resolve_drop (hm : s.members[p]? = some m) (hk : m.kind = .resource) :
    (Graph.ofSite s).resolve.Forgets p (Graph.ofSite (s.drop p)).resolve := by
  have hlen : ∀ t : Site, (Graph.ofSite t).requirements.length = t.members.length + 1 := by
    simp [Graph.ofSite, nodes]
  have hnodes := nodes_drop hm
  rw [Graph.resolve, Graph.resolve, hlen, hlen]
  exact settle_drop hm hk hnodes hnodes ⟨rfl, rfl⟩

/-- Without a resource the outcome is the same, but for what became of the resource. -/
theorem check_drop (hm : s.members[p]? = some m) (hk : m.kind = .resource) :
    s.check.Forgets p (s.drop p).check := by
  have hcheck : ∀ t : Site, t.check = (Graph.ofSite t).resolve := by
    intro t
    unfold check
    split
    · exact (resolve_of_isIntact ‹_›).symm
    · rfl
  rw [hcheck, hcheck]
  exact resolve_drop hm hk

end Bystander

end Site

end Reconciliation
