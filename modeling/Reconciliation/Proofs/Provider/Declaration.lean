import Reconciliation.Proofs.Store.Revision

/-! # Declared providers

Every provider in a store is made from properties. This ties the reserved name to default
applications: no generated name is like it, and nobody else is given it without a fault.
-/
namespace Reconciliation

def Record.Declared (r : Record) : Prop :=
  ∃ kind id p source, r = .ofProperties kind id p source

theorem Application.builtin_declared (id : ProviderId) :
    (Record.application (.builtin id)).Declared :=
  ⟨.application, id, _, none, rfl⟩

/-- The built-in default is a default application, mounted at the root, without a fault, and meant
for every runtime. -/
theorem Application.builtin_sound (id : ProviderId) :
    (builtin id).isDefault = true ∧ (builtin id).base = "/" ∧ (builtin id).profile.fault = none ∧
      ∀ runtime, (builtin id).profile.suits runtime = true :=
  ⟨rfl, rfl, rfl, fun _ => rfl⟩

theorem Registration.records_declared {r : Registration} {id : ProviderId} {x : Record}
    (h : x ∈ r.records id) : x.Declared := by
  obtain ⟨kind, -, rfl⟩ := List.mem_map.1 h
  exact ⟨kind, id, r.properties, r.source, rfl⟩

def Snapshot.Declared (s : Snapshot) : Prop :=
  ∀ e ∈ s.entries, e.record.Declared

namespace Snapshot.Declared

variable {s : Snapshot}

theorem erase (h : s.Declared) (k : Key) : (s.erase k).Declared :=
  fun e he => h e (mem_erase he)

theorem insert (h : s.Declared) {r : Record} (hr : r.Declared) : (s.insert r).Declared := by
  intro e he
  rcases List.mem_cons.1 he with rfl | he
  · exact hr
  · exact h e (mem_erase he)

theorem eraseAll (h : s.Declared) (ks : List Key) : (s.eraseAll ks).Declared := by
  induction ks generalizing s with
  | nil => exact h
  | cons k ks ih => exact ih (h.erase k)

theorem insertAll (h : s.Declared) {rs : List Record} (hrs : ∀ r ∈ rs, r.Declared) :
    (s.insertAll rs).Declared := by
  induction rs generalizing s with
  | nil => exact h
  | cons r rs ih =>
    obtain ⟨hr, hrs⟩ := List.forall_mem_cons.1 hrs
    exact ih (h.insert hr) hrs

end Snapshot.Declared

namespace Store

theorem mutate_declared {s : Store} (h : s.snapshot.Declared) {m : Mutation}
    (hm : ∀ r, m = .upsert r → r.Declared) : (s.mutate m).1.snapshot.Declared := by
  have hadvance : s.snapshot.advance.Declared := h
  have hupsert : ∀ n rs, (∀ r ∈ rs, r.Declared) →
      ({ s with nextToken := n }.upsertAll rs).1.snapshot.Declared := by
    intro n rs hrs
    unfold upsertAll
    split
    · exact h
    · exact hadvance.insertAll hrs
  have herase : ∀ ks, (s.eraseAll ks).1.snapshot.Declared := by
    intro ks
    unfold eraseAll
    split
    · exact hadvance.eraseAll ks
    · exact h
  cases m with
  | register r => exact hupsert _ _ fun x hx => Registration.records_declared hx
  | upsert r => exact hupsert s.nextToken [r] fun x hx => hm x (by rw [List.mem_singleton.1 hx])
  | update id r =>
    exact (hadvance.eraseAll _).insertAll fun x hx => Registration.records_declared hx
  | unregister id => exact herase (keysOf id)
  | remove k => exact herase [k]

/-- Whatever happens to a store, it only ever holds declared providers. -/
theorem after_declared (nextToken : Nat) {ms : List Mutation}
    (hms : ∀ r, Mutation.upsert r ∈ ms → r.Declared) :
    ((empty nextToken).after ms).snapshot.Declared := by
  induction ms using List.reverseRecOn with
  | nil => exact fun e he => absurd he List.not_mem_nil
  | append_singleton ms m ih =>
    rw [after_concat]
    apply mutate_declared (ih fun r hr => hms r (List.mem_append_left [m] hr))
    rintro r rfl
    exact hms r (List.mem_append_right ms List.mem_cons_self)

end Store

namespace Profile

theorem generatedName_ne_default (kind : Kind) (id : ProviderId) :
    generatedName kind id ≠ Keys.defaultName := by
  intro h
  have hshort : Keys.defaultName.length = 8 := by decide +kernel
  have hlong : 11 ≤ (generatedName kind id).length := by
    have hmark : ".generated.".length = 11 := by decide +kernel
    simp only [generatedName, String.length_append, toString, hmark]
    omega
  rw [h, hshort] at hlong
  omega

theorem explicit_of_name_eq_default (id : ProviderId) (kind : Kind) {p : Properties}
    (h : (ofProperties id kind p).name = Keys.defaultName) :
    (p.get? Keys.name).map Value.display = some Keys.defaultName := by
  cases hx : (p.get? Keys.name).map Value.display with
  | none =>
    have hname : (ofProperties id kind p).name = generatedName kind id := by
      simp [ofProperties, hx]
    exact absurd (hname.symm.trans h) (generatedName_ne_default kind id)
  | some name =>
    have hname : (ofProperties id kind p).name = name := by simp [ofProperties, hx]
    exact congrArg some (hname.symm.trans h)

theorem nameFault_default_ne_none : nameFault false Keys.defaultName ≠ none := by decide +kernel

end Profile

theorem Application.isDefault_iff (id : ProviderId) (p : Properties) :
    (ofProperties id p).isDefault = true ↔ (ofProperties id p).profile.name = Keys.defaultName := by
  have hdef : (ofProperties id p).isDefault = (!(ofProperties id p).profile.nameGenerated &&
      (ofProperties id p).profile.name == Keys.defaultName) := rfl
  rw [hdef, Bool.and_eq_true, beq_iff_eq, and_iff_right_iff_imp]
  intro h
  have hgiven := Profile.explicit_of_name_eq_default id .application h
  have hgenerated : (ofProperties id p).profile.nameGenerated =
      ((p.get? Keys.name).map Value.display).isNone := rfl
  rw [hgenerated, hgiven]
  rfl

theorem Content.name_ne_default {kind : ContentKind} {id : ProviderId} {p : Properties}
    {source : Option ObjectSource} (h : (ofProperties kind id p source).fault = none) :
    (ofProperties kind id p source).profile.name ≠ Keys.defaultName := by
  intro hname
  have hgiven := Profile.explicit_of_name_eq_default id kind.kind hname
  have happlication : (kind.kind == .application) = false := by cases kind <;> rfl
  have hprofile : (Profile.ofProperties id kind.kind p).fault = none :=
    (Option.or_eq_none_iff.1 (Option.or_eq_none_iff.1 h).1).1
  have hfault : (some Keys.defaultName).bind (Profile.nameFault false) = none := by
    have hfirst := (Option.or_eq_none_iff.1 hprofile).1
    rwa [hgiven, happlication] at hfirst
  exact Profile.nameFault_default_ne_none hfault

end Reconciliation
