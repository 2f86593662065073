import Reconciliation.Proofs.Resolution.Overwriting
import Reconciliation.Proofs.Resolution.Rivalry

/-! # Who gives way to whom

A rule goes through its pool once. Whoever has a rival before it loses to the first one, and nobody
else does; the winner stays in. The failure of a loser is told unless a later one has its key.
-/
namespace Reconciliation

namespace ShelfPass

/-- The first rival among those before an entry, to which the entry loses. -/
def beatenBy (rule : Rule) (before : List (Stored Shelved)) (x : Stored Shelved) :
    Option (Stored Shelved) :=
  Record.beatenBy (fun e : Stored Shelved => e.record.label) rule before x

def yielding (rule : Rule) (x w : Stored Shelved) : Mishap :=
  .ofFailure ⟨x.record.record, Record.causeOf rule w.record.label⟩

def Pools.entering (p : Pools) : Rule → List (Stored Shelved)
  | .path => p.admitted
  | .name => p.afterPath
  | .default => p.afterName

def Pools.leaving (p : Pools) : Rule → List (Stored Shelved)
  | .path => p.afterPath
  | .name => p.afterName
  | .default => p.afterDefault

theorem leaving_eq (es : List (Stored Shelved)) (runtime : Properties) (rule : Rule) :
    (pools es runtime).leaving rule = ((pools es runtime).entering rule).zipIdx.filterMap fun p =>
      if (beatenBy rule (((pools es runtime).entering rule).take p.2) p.1).isNone then some p.1
      else none := by
  have hsurvivors := Pass.survivors_through (fun e : Stored Shelved => e.record.label) rule
    ((pools es runtime).entering rule)
  cases rule <;> exact hsurvivors

theorem lostTo_eq (rule : Rule) (pool : List (Stored Shelved)) :
    lostTo rule pool = pool.zipIdx.filterMap fun p =>
      (beatenBy rule (pool.take p.2) p.1).map (yielding rule p.1) := by
  rw [lostTo, shelfContest, Pass.losses_through, List.map_filterMap]
  simp only [Option.map_map]
  rfl

theorem mem_lostTo {rule : Rule} {pool : List (Stored Shelved)} {m : Mishap} :
    m ∈ lostTo rule pool ↔ ∃ i x w, pool[i]? = some x ∧
      beatenBy rule (pool.take i) x = some w ∧ m = yielding rule x w := by
  simp only [lostTo_eq, List.mem_filterMap, Prod.exists, List.mem_zipIdx_iff_getElem?,
    Option.map_eq_some_iff]
  constructor
  · rintro ⟨x, i, hx, w, hw, rfl⟩
    exact ⟨i, x, w, hx, hw, rfl⟩
  · rintro ⟨i, x, w, hx, hw, rfl⟩
    exact ⟨x, i, hx, w, hw, rfl⟩

theorem afterRule_sublist (rule : Rule) (pool : List (Stored Shelved)) :
    (afterRule rule pool).Sublist pool :=
  (shelfContest rule).survivors_sublist pool

theorem entering_sublist (es : List (Stored Shelved)) (runtime : Properties) (rule : Rule) :
    ((pools es runtime).entering rule).Sublist (admitted es runtime) := by
  cases rule with
  | path => exact List.Sublist.refl _
  | name => exact afterRule_sublist _ _
  | default => exact (afterRule_sublist _ _).trans (afterRule_sublist _ _)

/-- The entries stand in the order of providers, as their shelves show them. -/
def Sorted (es : List (Stored Shelved)) : Prop :=
  es.Pairwise fun a b => (a.record.label.compare b.record.label).isLE = true

instance (es : List (Stored Shelved)) : Decidable (Sorted es) :=
  inferInstanceAs (Decidable (List.Pairwise _ _))

theorem admitted_eq_self {es : List (Stored Shelved)} {runtime : Properties}
    (hfit : ∀ e ∈ es, (e.record.record.fault.isNone && e.record.record.profile.suits runtime) = true)
    (hsorted : Sorted es) : admitted es runtime = es := by
  rw [admitted, sound, List.filter_eq_self.2 hfit]
  exact List.mergeSort_of_pairwise hsorted

theorem admitted_sorted (es : List (Stored Shelved)) (runtime : Properties) :
    Sorted (admitted es runtime) := by
  have htrans (a b c : Stored Shelved) (hab : (a.record.label.compare b.record.label).isLE = true)
      (hbc : (b.record.label.compare c.record.label).isLE = true) :
      (a.record.label.compare c.record.label).isLE = true := Std.TransCmp.isLE_trans hab hbc
  have htotal (a b : Stored Shelved) : ((a.record.label.compare b.record.label).isLE ||
      (b.record.label.compare a.record.label).isLE) = true :=
    Pass.isLE_total (a.map Shelved.label) (b.map Shelved.label)
  rw [Sorted, admitted, sortPool]
  exact List.pairwise_mergeSort htrans htotal _

theorem lostTo_infix (es : List (Stored Shelved)) (p : Pools) (rule : Rule) (f : Field)
    (vs : List Verdict) : lostTo rule (p.entering rule) <:+: allMishaps es p f vs := by
  cases rule with
  | path =>
    exact ⟨rejected es, lostTo .name p.afterPath ++ lostTo .default p.afterName ++
      (f.failures vs).map .ofFailure, by simp [allMishaps, Pools.entering]⟩
  | name =>
    exact ⟨rejected es ++ lostTo .path p.admitted, lostTo .default p.afterName ++
      (f.failures vs).map .ofFailure, by simp [allMishaps, Pools.entering]⟩
  | default =>
    exact ⟨rejected es ++ lostTo .path p.admitted ++ lostTo .name p.afterPath,
      (f.failures vs).map .ofFailure, by simp [allMishaps, Pools.entering]⟩

theorem not_yields_of_detached {v : Verdict} {d : Stored ShelvedContent × Cause}
    (h : d ∈ v.detached) : Pass.yields d.2 = false := by
  have hbroken : d ∈ v.plain.outcome.removed.filterMap (fun r => v.members[r.1]?.map fun c =>
      (c, Cause.unsatisfiedIn r.2 v.plain.application.record.profile.name)) →
        Pass.yields d.2 = false := by
    intro hd
    obtain ⟨r, -, hd⟩ := List.mem_filterMap.1 hd
    obtain ⟨_, -, rfl⟩ := Option.map_eq_some_iff.1 hd
    rfl
  unfold Verdict.detached at h
  dsimp only at h
  split at h
  · rcases List.mem_append.1 h with h | h
    · exact hbroken h
    · obtain ⟨c, -, rfl⟩ := List.mem_map.1 h
      cases c.record.content.kind <;> rfl
  · exact hbroken h

theorem not_yields_of_field {f : Field} {vs : List Verdict} {fl : Failure}
    (h : fl ∈ f.failures vs) : Pass.yields fl.cause = false := by
  rcases List.mem_append.1 h with h | h
  · rcases List.mem_append.1 h with h | h
    · obtain ⟨c, -, hc⟩ := List.mem_filterMap.1 h
      unfold Field.untaken? at hc
      split at hc
      · obtain rfl := Option.some.inj hc
        cases c.record.content.select <;> rfl
      · cases hc
    · obtain ⟨v, -, hv⟩ := List.mem_filterMap.1 h
      obtain ⟨sel, -, rfl⟩ := Option.map_eq_some_iff.1 hv
      rfl
  · obtain ⟨c, -, hc⟩ := List.mem_filterMap.1 h
    unfold Field.letGo? at hc
    split at hc
    · cases hc
    · obtain ⟨d, hd, rfl⟩ := Option.map_eq_some_iff.1 hc
      obtain ⟨v, -, hv⟩ := List.mem_flatMap.1 (List.mem_reverse.1 (List.mem_of_find?_eq_some hd))
      exact not_yields_of_detached hv

end ShelfPass

namespace Reconciler

def shelfPools (r : Reconciler) (s : Shelves) (runtime : Properties) : ShelfPass.Pools :=
  ShelfPass.pools (ShelfPass.candidates r.builtin s) runtime

/-- What a rule decides in a pass. The pool stands in the order of providers; who is beaten in it
drops out, and nobody else does. Each loser is met once, with a winner that stays in. If nobody else
fails under its key, the loser is reported so; and whoever is reported without being at fault, for
the reason that the rule gives, did lose so. -/
structure Decides (r : Reconciler) (s : Shelves) (runtime : Properties) (rule : Rule) : Prop where
  sorted : ShelfPass.Sorted ((r.shelfPools s runtime).entering rule)
  leaves : (r.shelfPools s runtime).leaving rule =
    ((r.shelfPools s runtime).entering rule).zipIdx.filterMap fun p =>
      if (ShelfPass.beatenBy rule (((r.shelfPools s runtime).entering rule).take p.2) p.1).isNone
      then some p.1 else none
  met : (((r.shelfPools s runtime).entering rule).zipIdx.filterMap fun p =>
    (ShelfPass.beatenBy rule (((r.shelfPools s runtime).entering rule).take p.2) p.1).map
      (ShelfPass.yielding rule p.1)) <:+: r.mishaps s runtime
  winner : ∀ i x w, ((r.shelfPools s runtime).entering rule)[i]? = some x →
    ShelfPass.beatenBy rule (((r.shelfPools s runtime).entering rule).take i) x = some w →
    w ∈ (r.shelfPools s runtime).leaving rule ∧
      ∃ j < i, ((r.shelfPools s runtime).entering rule)[j]? = some w ∧
        ShelfPass.beatenBy rule (((r.shelfPools s runtime).entering rule).take j) w = none
  reported : ∀ i x w, ((r.shelfPools s runtime).entering rule)[i]? = some x →
    ShelfPass.beatenBy rule (((r.shelfPools s runtime).entering rule).take i) x = some w →
    (∀ m ∈ r.mishaps s runtime, m.key = x.record.record.key → m = ShelfPass.yielding rule x w) →
    ((r.runShelves s runtime).failures x.record.record.kind).filter
      (fun f => f.record.id == x.record.record.id) =
        [⟨x.record.record, Record.causeOf rule w.record.label⟩]
  only : ∀ kind, ∀ f ∈ (r.runShelves s runtime).failures kind, f.record.fault = none →
    f.cause.reason = rule.reason →
    ∃ rule' i x w, Rule.reason rule' = rule.reason ∧
      ((r.shelfPools s runtime).entering rule')[i]? = some x ∧
      ShelfPass.beatenBy rule' (((r.shelfPools s runtime).entering rule').take i) x = some w ∧
      f = ⟨x.record.record, Record.causeOf rule' w.record.label⟩

variable {r : Reconciler} {s : Shelves} {runtime : Properties}

theorem mem_mishaps_of_lostTo {rule : Rule} {m : Mishap}
    (h : m ∈ ShelfPass.lostTo rule ((r.shelfPools s runtime).entering rule)) :
    m ∈ r.mishaps s runtime :=
  (ShelfPass.lostTo_infix _ _ rule _ _).subset h

theorem lostTo_of_mishaps {m : Mishap} (h : m ∈ r.mishaps s runtime)
    (hfault : m.provider.record.fault = none) (hy : Pass.yields m.cause = true) :
    ∃ rule, m ∈ ShelfPass.lostTo rule ((r.shelfPools s runtime).entering rule) := by
  simp only [mishaps, ShelfPass.allMishaps, List.mem_append] at h
  rcases h with (((h | h) | h) | h) | h
  · obtain ⟨e, -, he⟩ := List.mem_filterMap.1 h
    obtain ⟨cause, hcause, rfl⟩ := Option.map_eq_some_iff.1 he
    cases hfault.symm.trans hcause
  · exact ⟨.path, h⟩
  · exact ⟨.name, h⟩
  · exact ⟨.default, h⟩
  · obtain ⟨f, hf, rfl⟩ := List.mem_map.1 h
    cases (ShelfPass.not_yields_of_field hf).symm.trans hy

theorem exists_mishap_of_failures {kind : Kind} {f : Failure}
    (h : f ∈ (r.runShelves s runtime).failures kind) : ∃ m ∈ r.mishaps s runtime, m.failure = f := by
  rw [shelfFailures_eq, Pass.sortFailures, List.mem_mergeSort] at h
  obtain ⟨m, hm, rfl⟩ := List.mem_map.1 h
  exact ⟨m, (Pass.lastOfEach_sublist _ _).subset (List.mem_filter.1 hm).1, rfl⟩

theorem shelfPools_leaving (r : Reconciler) (s : Shelves) (runtime : Properties) (rule : Rule) :
    (r.shelfPools s runtime).leaving rule =
    ((r.shelfPools s runtime).entering rule).zipIdx.filterMap fun p =>
      if (ShelfPass.beatenBy rule (((r.shelfPools s runtime).entering rule).take p.2) p.1).isNone
      then some p.1 else none :=
  ShelfPass.leaving_eq _ runtime rule

theorem shelfFailures_of_alone {rule : Rule} {x w : Stored Shelved}
    (hmet : ShelfPass.yielding rule x w ∈ r.mishaps s runtime)
    (halone : ∀ m ∈ r.mishaps s runtime, m.key = x.record.record.key →
      m = ShelfPass.yielding rule x w) :
    ((r.runShelves s runtime).failures x.record.record.kind).filter
      (fun f => f.record.id == x.record.record.id) =
        [⟨x.record.record, Record.causeOf rule w.record.label⟩] := by
  have hkey : (ShelfPass.yielding rule x w).key = x.record.record.key :=
    Shelved.key_ofRecord x.record.record
  have hmem : ShelfPass.yielding rule x w ∈ (r.mishaps s runtime).filter fun m =>
      m.key == x.record.record.key := List.mem_filter.2 ⟨hmet, beq_iff_eq.2 hkey⟩
  have hlast := List.getLast?_eq_some_getLast (List.ne_nil_of_mem hmem)
  obtain ⟨hin, hk⟩ := List.mem_filter.1 (List.mem_of_getLast? hlast)
  refine (shelfFailures_under r s runtime x.record.record.key).trans ?_
  rw [hlast, halone _ hin (beq_iff_eq.1 hk)]
  simp [Mishap.failure, ShelfPass.yielding, Mishap.ofFailure]

def SharesPlace (r : Reconciler) (s : Shelves) (k : Key) : Prop :=
  k = (Record.application r.builtin).key ∧ ∃ e ∈ s.entries, e.record.key = k

/-- On shelves in order one failure is met under a key, unless it is that of the built-in default and
of a stored application. -/
theorem mishaps_count_le (hs : s.InOrder) (h : s.Keyed) {k : Key} (hk : ¬ r.SharesPlace s k) :
    ((r.mishaps s runtime).map Mishap.key).count k ≤ 1 := by
  obtain ⟨s', rfl⟩ := Shelves.inOrder_iff.1 hs
  have hfree : ¬ r.SharesBuiltin s' k := by
    rintro ⟨hbuiltin, e, he, hkey⟩
    refine hk ⟨hbuiltin, _, List.mem_map_of_mem he, ?_⟩
    exact (Shelved.key_ofRecord e.record).trans hkey
  have hkeys : (r.met s' runtime).map (Mishap.key ∘ Mishap.ofFailure) =
      (r.met s' runtime).map fun f => f.record.key :=
    List.map_congr_left fun f _ => Shelved.key_ofRecord f.record
  rw [mishaps_ofSnapshot, List.map_map, hkeys, ((met_perm r s' runtime).map _).count_eq]
  exact reported_count_le (keyed_of_ofSnapshot h) runtime hfree

/-- The losers of each rule are those with a rival before them, and of the failures under one key
the pass reports the one that it met last. On shelves in order each loser is reported, unless it
shares its key with the built-in default. -/
theorem runShelves_losers_trail_winners (r : Reconciler) (s : Shelves) (runtime : Properties) :
    (∀ rule, r.Decides s runtime rule) ∧
    (∀ k : Key, (((r.runShelves s runtime).failures k.kind).filter fun f => f.record.id == k.id) =
      (((r.mishaps s runtime).filter fun m => m.key == k).getLast?.map Mishap.failure).toList) ∧
    (s.InOrder → s.Keyed → ∀ k, ¬ r.SharesPlace s k →
      ((r.mishaps s runtime).map Mishap.key).count k ≤ 1) := by
  -- What holds of a scan over any pool is read off for the three pools, which are sorted as the
  -- admitted entries are.
  refine ⟨fun rule => ?_, shelfFailures_under r s runtime, fun hs h k => mishaps_count_le hs h⟩
  have hleaves := shelfPools_leaving r s runtime rule
  constructor
  · exact (ShelfPass.admitted_sorted _ runtime).sublist (ShelfPass.entering_sublist _ runtime rule)
  · exact hleaves
  · rw [← ShelfPass.lostTo_eq]
    exact ShelfPass.lostTo_infix _ _ rule _ _
  · intro i x w hx hw
    obtain ⟨j, hj, hjw, hunbeaten⟩ := Pass.unbeaten_through _ rule hw
    have hstays : ShelfPass.beatenBy rule
        (((r.shelfPools s runtime).entering rule).take j) w = none := hunbeaten
    refine ⟨?_, j, hj, hjw, hstays⟩
    rw [hleaves]
    exact List.mem_filterMap.2 ⟨(w, j), List.mem_zipIdx_iff_getElem?.2 hjw, by simp [hstays]⟩
  · intro i x w hx hw halone
    exact shelfFailures_of_alone
      (mem_mishaps_of_lostTo (ShelfPass.mem_lostTo.2 ⟨i, x, w, hx, hw, rfl⟩)) halone
  · intro kind f hf hfault hreason
    obtain ⟨m, hm, rfl⟩ := exists_mishap_of_failures hf
    have hyields : Pass.yields m.cause = true := by
      rw [Pass.yields, show m.cause.reason = _ from hreason]
      cases rule <;> rfl
    obtain ⟨rule', hlost⟩ := lostTo_of_mishaps hm hfault hyields
    obtain ⟨i, x, w, hx, hw, rfl⟩ := ShelfPass.mem_lostTo.1 hlost
    refine ⟨rule', i, x, w, ?_, hx, hw, ?_⟩
    · exact (Pass.yields_causeOf rule' w.record.label).symm.trans hreason
    · simp [Mishap.failure, ShelfPass.yielding, Mishap.ofFailure]

end Reconciler

namespace Shop

def mart : Application :=
  .ofProperties (.registered 7)
    (.ofList [(Keys.name, .text "mart"), (Keys.applicationBase, .text "/shop"),
      (Keys.serviceRanking, .integer 10)])

def cottage : Application :=
  .ofProperties (.registered 8)
    (.ofList [(Keys.name, .text Keys.defaultName), (Keys.applicationBase, .text "/home")])

def kiosk : Application :=
  .ofProperties (.registered 9)
    (.ofList [(Keys.name, .text "kiosk"), (Keys.applicationBase, .text "/shop")])

def booth : Application :=
  .ofProperties (.generated 0)
    (.ofList [(Keys.name, .text "booth"), (Keys.applicationBase, .text "/shop")])

def street : Shelves :=
  ⟨4, [⟨2, .application mart⟩, ⟨3, .application cottage⟩, ⟨4, .application kiosk⟩,
    ⟨1, .application booth⟩]⟩

theorem street_keyed : street.Keyed := by
  have hkeys : (street.entries.map fun e => e.record.key) = [⟨.application, .registered 7⟩,
      ⟨.application, .registered 8⟩, ⟨.application, .registered 9⟩,
      ⟨.application, .generated 0⟩] := rfl
  rw [Shelves.Keyed, hkeys]
  decide

/-- All candidates are sound, suit any runtime, and stand in the order of providers. -/
theorem street_admitted : ShelfPass.admitted (ShelfPass.candidates reconciler.builtin street) .empty =
    ShelfPass.candidates reconciler.builtin street :=
  ShelfPass.admitted_eq_self (by decide +kernel) (by decide +kernel)

theorem street_entering : (reconciler.shelfPools street .empty).entering .path =
    ShelfPass.candidates reconciler.builtin street :=
  street_admitted

/-- The kiosk loses its path to the mart and is reported so. -/
theorem kiosk_reported : street.InOrder ∧ street.Keyed ∧
    ((reconciler.runShelves street .empty).failures .application).filter
      (fun f => f.record.id == .registered 9) =
        [⟨.application kiosk, .lost "mart" (.registered 7)⟩] := by
  have horder : street.InOrder := by
    simp only [Shelves.InOrder, street, List.forall_mem_cons]
    exact ⟨rfl, rfl, rfl, rfl, by simp⟩
  obtain ⟨hdecides, -, hone⟩ :=
    Reconciler.runShelves_losers_trail_winners reconciler street .empty
  have hreported := (hdecides .path).reported 2 ⟨4, .application kiosk⟩ ⟨2, .application mart⟩
  have hmet := (hdecides .path).met.subset
  rw [street_entering] at hreported hmet
  have hfree : ¬ reconciler.SharesPlace street (Record.application kiosk).key := by
    rintro ⟨hkey, -⟩
    have hid : ProviderId.registered 9 = .generated 0 := congrArg Key.id hkey
    cases hid
  have hyielding : ShelfPass.yielding .path ⟨4, .application kiosk⟩ ⟨2, .application mart⟩ ∈
      reconciler.mishaps street .empty := hmet (by decide +kernel)
  have honly := Reconciler.filter_eq_singleton hyielding (hone horder street_keyed _ hfree)
  refine ⟨horder, street_keyed, hreported (by decide +kernel) (by decide +kernel) fun m hm hk => ?_⟩
  exact List.mem_singleton.1 (honly ▸ List.mem_filter.2 ⟨hm, beq_iff_eq.2 hk⟩)

def lamp (n : Int64) (shade : String) : Content :=
  .ofProperties .resource (.registered n)
    (.ofList [(Keys.name, .text "lamp"), ("shade", .text shade)]) none

def bazaar : Shelves :=
  ⟨3, [⟨1, .content ⟨.resource, lamp 4 "brass"⟩⟩, ⟨2, .content ⟨.resource, lamp 5 "glass"⟩⟩,
    ⟨3, .content ⟨.extension, lamp 5 "paper"⟩⟩]⟩

theorem bazaar_admitted : ShelfPass.admitted (ShelfPass.candidates reconciler.builtin bazaar) .empty =
    ShelfPass.candidates reconciler.builtin bazaar :=
  ShelfPass.admitted_eq_self (by decide +kernel) (by decide +kernel)

/-- The booth loses its path to the mart as well, but the built-in default, which loses to the
cottage, is reported in its stead. The glass lamp loses its name to the brass one, but the paper one,
which stands on another shelf under the same number, is reported in its stead. -/
theorem booth_and_lamp_unreported :
    (street.Keyed ∧
      ((reconciler.shelfPools street .empty).entering .path)[3]? = some ⟨1, .application booth⟩ ∧
      ShelfPass.beatenBy .path (((reconciler.shelfPools street .empty).entering .path).take 3)
        ⟨1, .application booth⟩ = some ⟨2, .application mart⟩ ∧
      ∀ f ∈ (reconciler.runShelves street .empty).failures .application,
        f.record ≠ .application booth) ∧
    bazaar.Keyed ∧
      ((reconciler.shelfPools bazaar .empty).entering .name)[1]? =
        some ⟨2, .content ⟨.resource, lamp 5 "glass"⟩⟩ ∧
      ShelfPass.beatenBy .name (((reconciler.shelfPools bazaar .empty).entering .name).take 1)
        ⟨2, .content ⟨.resource, lamp 5 "glass"⟩⟩ =
          some ⟨1, .content ⟨.resource, lamp 4 "brass"⟩⟩ ∧
      ∀ f ∈ (reconciler.runShelves bazaar .empty).failures .resource,
        f.record ≠ .content (lamp 5 "glass") := by
  refine ⟨⟨street_keyed, ?_, ?_, fun f => ?_⟩, by decide +kernel, ?_, ?_, fun f => ?_⟩
  · rw [street_entering]
    decide +kernel
  · rw [street_entering]
    decide +kernel
  · rw [Reconciler.shelfFailures_eq, Pass.sortFailures, List.mem_mergeSort, Reconciler.mishaps,
      Reconciler.shelfVerdicts, Reconciler.shelfField, ShelfPass.pools, street_admitted]
    revert f
    decide +kernel
  · rw [Reconciler.shelfPools, ShelfPass.pools, bazaar_admitted]
    decide +kernel
  · rw [Reconciler.shelfPools, ShelfPass.pools, bazaar_admitted]
    decide +kernel
  · rw [Reconciler.shelfFailures_eq, Pass.sortFailures, List.mem_mergeSort, Reconciler.mishaps,
      Reconciler.shelfVerdicts, Reconciler.shelfField, ShelfPass.pools, bazaar_admitted]
    revert f
    decide +kernel

end Shop

end Reconciliation
