import Reconciliation.Manifest
import Reconciliation.Proofs.Resolution.Renaming
import Reconciliation.Proofs.Store.LastWrite
import Reconciliation.Proofs.Provider.Declaration

/-! # Registrations in turn

A store that takes in one registration after the other gives tokens to those without an id of their
own, in their order. What it holds in the end is told by the records of each registration.
-/
namespace Reconciliation

namespace Registration

/-- A registration that was not pinned bears its number or takes the next token. -/
theorem resolveId_cases {r : Registration} (h : r.id = none) :
    (∃ n, ∀ next, r.resolveId next = (.registered n, next)) ∨
      ∀ next, r.resolveId next = (.generated next, next + 1) := by
  unfold resolveId
  cases hown : r.ownId? with
  | none => exact Or.inr fun _ => rfl
  | some id =>
    rw [ownId?, h, Option.none_or, Option.map_eq_some_iff] at hown
    obtain ⟨n, -, rfl⟩ := hown
    exact Or.inl ⟨n, fun _ => rfl⟩

end Registration

namespace Manifest

def tokenAfter (next : Nat) (rs : List Registration) : Nat :=
  rs.foldl (fun next r => (r.resolveId next).2) next

theorem tokenAfter_cons (next : Nat) (r : Registration) (rs : List Registration) :
    tokenAfter next (r :: rs) = tokenAfter (r.resolveId next).2 rs := rfl

theorem recordsFrom_cons (next : Nat) (r : Registration) (rs : List Registration) :
    recordsFrom next (r :: rs) =
      r.records (r.resolveId next).1 :: recordsFrom (r.resolveId next).2 rs := rfl

theorem le_tokenAfter {rs : List Registration} (h : ∀ r ∈ rs, r.id = none) (next : Nat) :
    next ≤ tokenAfter next rs := by
  induction rs generalizing next with
  | nil => exact Nat.le_refl next
  | cons r rs ih =>
    obtain ⟨hr, hrs⟩ := List.forall_mem_cons.1 h
    rw [tokenAfter_cons]
    rcases Registration.resolveId_cases hr with ⟨n, hn⟩ | hn
    · rw [hn]
      exact ih hrs next
    · rw [hn]
      exact Nat.le_of_succ_le (ih hrs (next + 1))

/-- A record that registrations lead to: it was declared, and its token, if it has one, was given to
one of them. -/
structure Issued (first last : Nat) (r : Record) : Prop where
  declared : r.Declared
  token : ∀ t, r.id = .generated t → first ≤ t ∧ t < last

theorem recordsFrom_issued {rs : List Registration} (h : ∀ r ∈ rs, r.id = none) (next : Nat) :
    ∀ x ∈ (recordsFrom next rs).flatten, Issued next (tokenAfter next rs) x := by
  induction rs generalizing next with
  | nil => exact fun x hx => nomatch hx
  | cons r rs ih =>
    obtain ⟨hr, hrs⟩ := List.forall_mem_cons.1 h
    intro x hx
    rw [recordsFrom_cons, List.flatten_cons, List.mem_append] at hx
    rw [tokenAfter_cons]
    have hown (hx : x ∈ r.records (r.resolveId next).1) : x.id = (r.resolveId next).1 :=
      ((r.mem_records_keys _).1 (List.mem_map_of_mem hx)).2
    rcases Registration.resolveId_cases hr with ⟨n, hn⟩ | hn
    · simp only [hn] at hx hown ⊢
      rcases hx with hx | hx
      · refine ⟨Registration.records_declared hx, fun t ht => ?_⟩
        cases ht.symm.trans (hown hx)
      · exact ih hrs next x hx
    · simp only [hn] at hx hown ⊢
      have hle := le_tokenAfter hrs (next + 1)
      rcases hx with hx | hx
      · refine ⟨Registration.records_declared hx, fun t ht => ?_⟩
        cases ht.symm.trans (hown hx)
        omega
      · obtain ⟨hdeclared, htoken⟩ := ih hrs (next + 1) x hx
        refine ⟨hdeclared, fun t ht => ?_⟩
        have := htoken t ht
        omega

/-- Under other tokens, each one later, the same records come about. -/
theorem recordsFrom_succ {ρ : Renaming} {rs : List Registration} (h : ∀ r ∈ rs, r.id = none)
    (next : Nat) (hρ : ∀ t, next ≤ t → t < tokenAfter next rs → ρ.token t = t + 1) :
    recordsFrom (next + 1) rs = (recordsFrom next rs).map (List.map ρ.onRecord) := by
  induction rs generalizing next with
  | nil => rfl
  | cons r rs ih =>
    obtain ⟨hr, hrs⟩ := List.forall_mem_cons.1 h
    rw [recordsFrom_cons, recordsFrom_cons, List.map_cons, ← ρ.records_onId]
    rw [tokenAfter_cons] at hρ
    rcases Registration.resolveId_cases hr with ⟨n, hn⟩ | hn
    · simp only [hn] at hρ ⊢
      rw [ih hrs next hρ]
      rfl
    · simp only [hn] at hρ ⊢
      have hle := le_tokenAfter hrs (next + 1)
      have hnext : ρ.onId (.generated next) = .generated (next + 1) :=
        congrArg ProviderId.generated (hρ next (Nat.le_refl next) hle)
      rw [hnext, ih hrs (next + 1) fun t ht => hρ t (Nat.le_of_succ_le ht)]

end Manifest

/-- A snapshot after a group of records that are added as one mutation, if there are any. -/
def Snapshot.afterGroup (s : Snapshot) (rs : List Record) : Snapshot :=
  if rs.isEmpty then s else s.advance.insertAll rs

def Snapshot.afterGroups (s : Snapshot) (groups : List (List Record)) : Snapshot :=
  groups.foldl Snapshot.afterGroup s

theorem Snapshot.mem_afterGroups {s : Snapshot} {groups : List (List Record)} {e : Stored Record}
    (h : e ∈ (s.afterGroups groups).entries) : e ∈ s.entries ∨ e.record ∈ groups.flatten := by
  induction groups generalizing s with
  | nil => exact Or.inl h
  | cons rs groups ih =>
    rw [List.flatten_cons, List.mem_append]
    rcases ih h with h | h
    · unfold afterGroup at h
      split at h
      · exact Or.inl h
      · refine (mem_insertAll h).imp_right fun h => Or.inl ?_
        obtain ⟨r, hr, rfl⟩ := List.mem_map.1 h
        exact hr
    · exact Or.inr (Or.inr h)

theorem Renaming.onSnapshot_afterGroup (ρ : Renaming) (s : Snapshot) (rs : List Record) :
    ρ.onSnapshot (s.afterGroup rs) = (ρ.onSnapshot s).afterGroup (rs.map ρ.onRecord) := by
  unfold Snapshot.afterGroup
  rw [List.isEmpty_map]
  split
  · rfl
  · rw [ρ.onSnapshot_insertAll, ρ.onSnapshot_advance]

theorem Renaming.onSnapshot_afterGroups (ρ : Renaming) (s : Snapshot)
    (groups : List (List Record)) : ρ.onSnapshot (s.afterGroups groups) =
      (ρ.onSnapshot s).afterGroups (groups.map (List.map ρ.onRecord)) := by
  induction groups generalizing s with
  | nil => rfl
  | cons rs groups ih =>
    refine (ih (s.afterGroup rs)).trans ?_
    rw [ρ.onSnapshot_afterGroup]
    rfl

namespace Store

def enrol (s : Store) (rs : List Registration) : Store :=
  rs.foldl (fun s r => (s.register r).1) s

theorem register_eq (s : Store) (r : Registration) : (s.register r).1 =
    ⟨s.snapshot.afterGroup (r.records (r.resolveId s.nextToken).1),
      (r.resolveId s.nextToken).2⟩ := by
  unfold register upsertAll Snapshot.afterGroup
  dsimp only
  split <;> rfl

theorem enrol_eq (s : Store) (rs : List Registration) : s.enrol rs =
    ⟨s.snapshot.afterGroups (Manifest.recordsFrom s.nextToken rs),
      Manifest.tokenAfter s.nextToken rs⟩ := by
  induction rs generalizing s with
  | nil => rfl
  | cons r rs ih =>
    have hstep : s.enrol (r :: rs) = (s.register r).1.enrol rs := rfl
    rw [hstep, ih, register_eq]
    rfl

theorem enrol_keyed (next : Nat) (rs : List Registration) :
    ((empty next).enrol rs).snapshot.Keyed := by
  have hafter : (empty next).enrol rs = (empty next).after (rs.map .register) := by
    rw [after, List.foldl_map]
    rfl
  rw [hafter]
  exact (chronicle_after next _).keyed

end Store

end Reconciliation
