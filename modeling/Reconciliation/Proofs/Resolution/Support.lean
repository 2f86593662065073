import Reconciliation.Proofs.Resolution.Verdict

/-! # Groups that support themselves

As long as no member is listed twice, the places of a site say nothing: what remains is the largest
group of members that find what they require in the context or among themselves.
-/
namespace Reconciliation.Pass

/-- A requirement is met by the context or by an extension of the group, other than the content that
requires it, if it is content that does. -/
def MetWithin (runtime : Properties) (a : Application) (group : Set (Stored Content))
    (self : Option (Stored Content)) (sel : Selector) : Prop :=
  metByContext sel a.profile.properties runtime = true ∨
    ∃ e ∈ group, some e ≠ self ∧ e.record.kind = .extension ∧
      sel.accepts e.record.profile.properties = true

structure SelfSupporting (runtime : Properties) (a : Application) (members : List (Stored Content))
    (group : Set (Stored Content)) : Prop where
  listed : ∀ c ∈ group, c ∈ members
  met : ∀ c ∈ group, ∀ sel ∈ c.record.profile.requires, MetWithin runtime a group (some c) sel

def placesOf (members : List (Stored Content)) (group : Set (Stored Content)) : Set Nat :=
  {i | ∃ c ∈ group, members[i]? = some c}

section

variable {runtime : Properties} {a : Stored Application} {members : List (Stored Content)}
  {group : Set (Stored Content)}

/-- Meeting a requirement from certain places is meeting it within the group that stands there. -/
theorem meets_placesOf_iff (hlisted : ∀ c ∈ group, c ∈ members) {node : Nat}
    {self : Option (Stored Content)}
    (hself : ∀ i e, members[i]? = some e → (i + 1 = node ↔ some e = self)) (sel : Selector) :
    (siteOf runtime a members).Meets (placesOf members group) node sel ↔
      MetWithin runtime a.record group self sel := by
  refine or_congr_right ?_
  constructor
  · rintro ⟨i, ⟨e, he, hi⟩, m, hm, hkind, hne, haccepts⟩
    obtain ⟨e', hi', rfl⟩ := siteOf_getElem?.1 hm
    obtain rfl := Option.some.inj (hi.symm.trans hi')
    exact ⟨e, he, fun h => hne ((hself i e hi).2 h), hkind, haccepts⟩
  · rintro ⟨e, he, hne, hkind, haccepts⟩
    obtain ⟨i, hi⟩ := List.mem_iff_getElem?.1 (hlisted e he)
    exact ⟨i, ⟨e, he, hi⟩, _, siteOf_getElem?.2 ⟨e, hi, rfl⟩, hkind,
      fun h => hne ((hself i e hi).1 h), haccepts⟩

theorem self_of_place (hn : members.Nodup) {i : Nat} {c : Stored Content}
    (hi : members[i]? = some c) (j : Nat) (e : Stored Content) (hj : members[j]? = some e) :
    j + 1 = i + 1 ↔ some e = some c := by
  rw [Nat.succ_inj, Option.some.injEq]
  constructor
  · rintro rfl
    exact Option.some.inj (hj.symm.trans hi)
  · rintro rfl
    obtain ⟨hlt, -⟩ := List.getElem?_eq_some_iff.1 hj
    exact (List.getElem?_inj hlt hn).1 (hj.trans hi.symm)

theorem supported_placesOf_iff (hn : members.Nodup) (hlisted : ∀ c ∈ group, c ∈ members) :
    (siteOf runtime a members).Supported (placesOf members group) ↔
      SelfSupporting runtime a.record members group := by
  constructor
  · intro h
    refine ⟨hlisted, fun c hc sel hsel => ?_⟩
    obtain ⟨i, hi⟩ := List.mem_iff_getElem?.1 (hlisted c hc)
    obtain ⟨m, hm, hmet⟩ := h i ⟨c, hc, hi⟩
    obtain ⟨c', hi', rfl⟩ := siteOf_getElem?.1 hm
    obtain rfl := Option.some.inj (hi.symm.trans hi')
    exact (meets_placesOf_iff hlisted (self_of_place hn hi) sel).1 (hmet sel hsel)
  · rintro h i ⟨c, hc, hi⟩
    refine ⟨_, siteOf_getElem?.2 ⟨c, hi, rfl⟩, fun sel hsel => ?_⟩
    exact (meets_placesOf_iff hlisted (self_of_place hn hi) sel).2 (h.met c hc sel hsel)

theorem mem_remaining {v : Verdict} {c : Stored Content} :
    c ∈ v.remaining ↔ ∃ i, (c, i) ∈ v.staying := by
  rw [Verdict.remaining_eq, List.mem_map]
  constructor
  · rintro ⟨⟨c, i⟩, hi, rfl⟩
    exact ⟨i, hi⟩
  · rintro ⟨i, hi⟩
    exact ⟨_, hi, rfl⟩

theorem survivors_eq_placesOf (hn : members.Nodup) :
    (siteOf runtime a members).survivors (judge runtime a members).outcome =
      placesOf members {c | c ∈ (judge runtime a members).remaining} := by
  ext i
  constructor
  · rintro ⟨hlt, hstays⟩
    have hlt : i < members.length := by simpa [siteOf] using hlt
    have hi := List.getElem?_eq_getElem hlt
    refine ⟨members[i], mem_remaining.2 ⟨i, Verdict.mem_staying.2 ⟨hi, hstays⟩⟩, hi⟩
  · rintro ⟨c, hc, hi⟩
    obtain ⟨j, hj⟩ := mem_remaining.1 hc
    obtain ⟨hplace, hstays⟩ := Verdict.mem_staying.1 hj
    obtain ⟨hlt, -⟩ := List.getElem?_eq_some_iff.1 hi
    obtain rfl : i = j := (List.getElem?_inj hlt hn).1 (hi.trans hplace.symm)
    exact ⟨by simpa [siteOf] using hlt, hstays⟩

theorem remaining_listed : ∀ c ∈ {c | c ∈ (judge runtime a members).remaining}, c ∈ members :=
  fun _ hc => (judge runtime a members).remaining_sublist.subset hc

/-- What remains is the largest group that supports itself. -/
theorem remaining_greatest (hn : members.Nodup) :
    IsGreatest {group | SelfSupporting runtime a.record members group}
      {c | c ∈ (judge runtime a members).remaining} := by
  have hsettled := (siteOf runtime a members).check_settled
  rw [← judge_outcome] at hsettled
  have hgreatest := hsettled.greatest
  rw [survivors_eq_placesOf hn] at hgreatest
  refine ⟨(supported_placesOf_iff hn remaining_listed).1 hgreatest.1, ?_⟩
  intro group hgroup c hc
  obtain ⟨i, hi⟩ := List.mem_iff_getElem?.1 (hgroup.listed c hc)
  have hsupported := (supported_placesOf_iff hn hgroup.listed).2 hgroup
  obtain ⟨c', hc', hi'⟩ := hgreatest.2 hsupported ⟨c, hc, hi⟩
  rwa [Option.some.inj (hi.symm.trans hi')]

/-- An application is broken when something that it requires is met neither by the context nor by an
extension that remains. -/
theorem application_broken_iff (hn : members.Nodup) :
    (judge runtime a members).outcome.application.isSome = true ↔
      ∃ sel ∈ a.record.profile.requires,
        ¬ MetWithin runtime a.record {c | c ∈ (judge runtime a members).remaining} none sel := by
  have hsettled := (siteOf runtime a members).check_settled
  rw [← judge_outcome] at hsettled
  have hbroken := hsettled.application_broken
  rw [survivors_eq_placesOf hn] at hbroken
  refine hbroken.trans (exists_congr fun sel => and_congr_right fun _ => not_congr ?_)
  exact meets_placesOf_iff remaining_listed (fun i e _ => by simp) sel

end

end Reconciliation.Pass
