import Reconciliation.Proofs.Provider.Naming
import Reconciliation.Proofs.Resolution.Conflict
import Reconciliation.Proofs.Resolution.Mirroring

/-! # The order of providers under other tokens

Tokens take part in the order of providers twice: by the texts of generated names and, where names
are level, by themselves. All who are told apart by something else stay in their order.
-/
namespace Reconciliation

namespace Renaming

variable {ρ : Renaming} {a b : Record}

theorem name_of_given {r : Record} (h : r.profile.nameGenerated = false) :
    (ρ.onRecord r).name = r.name := by
  rw [name_onRecord, h]
  rfl

theorem name_of_generated {r : Record} (h : r.profile.nameGenerated = true) :
    (ρ.onRecord r).name = Profile.generatedName r.kind (ρ.onId r.id) := by
  rw [name_onRecord, h]
  rfl

theorem name_of_registered {r : Record} (hr : r.Declared) {n : Int64} (h : r.id = .registered n) :
    (ρ.onRecord r).name = r.name := by
  cases hg : r.profile.nameGenerated with
  | false => exact name_of_given hg
  | true =>
    rw [name_of_generated hg, hr.name_of_generated hg, h]
    rfl

/-- Whether two providers are told apart by name does not depend on the tokens. -/
theorem name_eq_iff (ha : a.Declared) (hb : b.Declared) (hfa : a.fault = none)
    (hfb : b.fault = none) : (ρ.onRecord a).name = (ρ.onRecord b).name ↔ a.name = b.name := by
  cases hga : a.profile.nameGenerated with
  | false =>
    rw [name_of_given hga]
    cases hgb : b.profile.nameGenerated with
    | false => rw [name_of_given hgb]
    | true =>
      rw [name_of_generated hgb, hb.name_of_generated hgb]
      have hmark := ha.unmarked hfa hga
      exact iff_of_false (Profile.ne_generatedName hmark _ _) (Profile.ne_generatedName hmark _ _)
  | true =>
    rw [name_of_generated hga, ha.name_of_generated hga]
    cases hgb : b.profile.nameGenerated with
    | false =>
      rw [name_of_given hgb]
      have hmark := hb.unmarked hfb hgb
      exact iff_of_false (Profile.ne_generatedName hmark _ _).symm
        (Profile.ne_generatedName hmark _ _).symm
    | true =>
      rw [name_of_generated hgb, hb.name_of_generated hgb, Profile.generatedName_inj,
        Profile.generatedName_inj, ρ.onId_injective.eq_iff]

/-- How two names compare does not depend on the tokens, unless both are generated. -/
theorem compare_name_eq (ha : a.Declared) (hb : b.Declared) (hfa : a.fault = none)
    (hfb : b.fault = none)
    (h : a.profile.nameGenerated = true → b.profile.nameGenerated = true →
      compare (ρ.onRecord a).name (ρ.onRecord b).name = compare a.name b.name) :
    compare (ρ.onRecord a).name (ρ.onRecord b).name = compare a.name b.name := by
  cases hga : a.profile.nameGenerated with
  | false =>
    rw [name_of_given hga]
    cases hgb : b.profile.nameGenerated with
    | false => rw [name_of_given hgb]
    | true =>
      rw [name_of_generated hgb, hb.name_of_generated hgb]
      exact Profile.compare_generatedName_eq (ha.unmarked hfa hga) _ _ _ _
  | true =>
    cases hgb : b.profile.nameGenerated with
    | false =>
      rw [name_of_given hgb, name_of_generated hga, ha.name_of_generated hga,
        Std.OrientedOrd.eq_swap (a := Profile.generatedName a.kind (ρ.onId a.id)),
        Std.OrientedOrd.eq_swap (a := Profile.generatedName a.kind a.id),
        Profile.compare_generatedName_eq (hb.unmarked hfb hgb) _ a.kind _ a.id]
    | true => exact h hga hgb

/-- Two providers stay in their order unless both have tokens. Then it takes that their names do,
and their tokens if the names are level. -/
theorem compare_onRecord_eq (ha : a.Declared) (hb : b.Declared)
    (h : ∀ t u, a.id = .generated t → b.id = .generated u →
      a.profile.priority = b.profile.priority →
      compare (ρ.onRecord a).name (ρ.onRecord b).name = compare a.name b.name ∧
        (a.name = b.name → compare (ρ.token t) (ρ.token u) = compare t u)) :
    (ρ.onRecord a).compare (ρ.onRecord b) = a.compare b := by
  have hrest (hpriority : a.profile.priority = b.profile.priority) :
      ((ρ.onId a.id).compareRegistered (ρ.onId b.id)).then
      ((compare (ρ.onRecord a).name (ρ.onRecord b).name).then
        (compare (ρ.onId a.id) (ρ.onId b.id))) =
      (a.id.compareRegistered b.id).then ((compare a.name b.name).then (compare a.id b.id)) := by
    cases hia : a.id with
    | registered m =>
      cases hib : b.id with
      | registered n =>
        rw [name_of_registered ha hia, name_of_registered hb hib]
        rfl
      | generated u => rfl
    | generated t =>
      cases hib : b.id with
      | registered n => rfl
      | generated u =>
        obtain ⟨hname, htoken⟩ := h t u hia hib hpriority
        rw [hname]
        cases hlevel : compare a.name b.name with
        | lt => rfl
        | gt => rfl
        | eq => exact htoken (Std.LawfulEqOrd.eq_of_compare hlevel)
  have hprofile : (ρ.onRecord a).profile.compare (ρ.onRecord b).profile =
      a.profile.compare b.profile := by
    unfold Profile.compare
    rw [priority_onRecord, priority_onRecord]
    cases hpriority : compare b.profile.priority a.profile.priority with
    | lt => rfl
    | gt => rfl
    | eq =>
      have hsame := (Std.LawfulEqOrd.eq_of_compare hpriority).symm
      have hid (r : Record) : (ρ.onRecord r).profile.id = ρ.onId r.id := id_onRecord ρ r
      rw [hid, hid]
      exact hrest hsame
  rw [Record.compare, Record.compare, hprofile, kind_onRecord, kind_onRecord]

end Renaming

namespace Pass

variable {ρ : Renaming} {es : List (Stored Record)}

/-- Names are shared as before, and tokens that stay in their order keep those who share one in
theirs. -/
theorem keepsNames (hdeclared : ∀ e ∈ es, e.record.Declared)
    (hsound : ∀ e ∈ es, e.record.fault = none)
    (htokens : ∀ a ∈ es, ∀ b ∈ es, ∀ t u, a.record.id = .generated t → b.record.id = .generated u →
      a.record.isDefault = false → b.record.isDefault = false →
      compare (ρ.token t) (ρ.token u) = compare t u) :
    KeepsNames ρ es where
  rivals a ha b hb := by
    have hname := Renaming.name_eq_iff (ρ := ρ) (hdeclared a ha) (hdeclared b hb) (hsound a ha)
      (hsound b hb)
    have hsame : ((ρ.onRecord a.record).name == (ρ.onRecord b.record).name) =
        (a.record.name == b.record.name) := by
      rw [Bool.eq_iff_iff, beq_iff_eq, beq_iff_eq, hname]
    simp only [Record.rivals, Renaming.isDefault_onRecord, hsame]
  order a ha b hb hrivals := by
    simp only [Record.rivals, Bool.and_eq_true, Bool.not_eq_true', beq_iff_eq] at hrivals
    obtain ⟨⟨hga, hgb⟩, hname⟩ := hrivals
    have hname' : (ρ.onRecord a.record).name = (ρ.onRecord b.record).name :=
      (Renaming.name_eq_iff (hdeclared a ha) (hdeclared b hb) (hsound a ha) (hsound b hb)).2 hname
    refine not_not.2 (Renaming.compare_onRecord_eq (hdeclared a ha) (hdeclared b hb) ?_)
    intro t u hta hub _
    refine ⟨?_, fun _ => htokens a ha b hb t u hta hub hga hgb⟩
    rw [hname, hname', Std.ReflOrd.compare_self, Std.ReflOrd.compare_self]

/-- The order of two providers depends on the tokens only if both have one and are level up to
there; and either their names are level too, or both are generated. -/
theorem Swaps.cases {a b : Record} (h : Swaps ρ a b) (ha : a.Declared) (hb : b.Declared)
    (hfa : a.fault = none) (hfb : b.fault = none) :
    ∃ t u, a.id = .generated t ∧ b.id = .generated u ∧ a.profile.priority = b.profile.priority ∧
      (a.name = b.name ∧ compare (ρ.token t) (ρ.token u) ≠ compare t u ∨
        a.profile.nameGenerated = true ∧ b.profile.nameGenerated = true ∧
          compare (ρ.onRecord a).name (ρ.onRecord b).name ≠ compare a.name b.name) := by
  by_contra hnot
  refine h (Renaming.compare_onRecord_eq ha hb fun t u hta hub hpriority => ?_)
  have hlevel (hname : a.name = b.name) : compare (ρ.token t) (ρ.token u) = compare t u := by
    by_contra hne
    exact hnot ⟨t, u, hta, hub, hpriority, Or.inl ⟨hname, hne⟩⟩
  refine ⟨Renaming.compare_name_eq ha hb hfa hfb fun hga hgb => ?_, hlevel⟩
  by_contra hne
  exact hnot ⟨t, u, hta, hub, hpriority, Or.inr ⟨hga, hgb, hne⟩⟩

end Pass

end Reconciliation
