import Mathlib.Data.List.Infix
import Mathlib.Data.List.Induction
import Mathlib.Data.List.Nodup
import Mathlib.Data.Set.Basic
import Reconciliation.Store.Basic

/-! # Revisions tell records apart

A mutation stamps what it writes with the change count that it reaches. Over all that a store ever
held, a key together with a revision therefore belongs to one record only.
-/
namespace Reconciliation

namespace Snapshot

theorem keyed_erase {s : Snapshot} (h : s.Keyed) (k : Key) : (s.erase k).Keyed :=
  (List.filter_sublist.map _).nodup h

theorem mem_erase {s : Snapshot} {k : Key} {e : Stored Record} (h : e ∈ (s.erase k).entries) :
    e ∈ s.entries :=
  (List.mem_filter.1 h).1

theorem mem_insertAll {s : Snapshot} {rs : List Record} {e : Stored Record}
    (h : e ∈ (s.insertAll rs).entries) :
    e ∈ s.entries ∨ e ∈ rs.map (Stored.mk s.changeCount) := by
  induction rs generalizing s with
  | nil => exact Or.inl h
  | cons r rs ih =>
    rcases ih h with he | he
    · rcases List.mem_cons.1 he with rfl | he
      · exact Or.inr List.mem_cons_self
      · exact Or.inl (mem_erase he)
    · exact Or.inr (List.mem_cons_of_mem _ he)

theorem mem_eraseAll {s : Snapshot} {ks : List Key} {e : Stored Record}
    (h : e ∈ (s.eraseAll ks).entries) : e ∈ s.entries := by
  induction ks generalizing s with
  | nil => exact h
  | cons k ks ih => exact mem_erase (ih h)

theorem keyed_insert {s : Snapshot} (h : s.Keyed) (r : Record) : (s.insert r).Keyed := by
  refine List.nodup_cons.2 ⟨?_, keyed_erase h r.key⟩
  intro hm
  obtain ⟨e, he, hk⟩ := List.mem_map.1 hm
  have hne := (List.mem_filter.1 he).2
  simp [hk] at hne

structure Rewrites (s t : Snapshot) : Prop where
  keyed : t.Keyed
  changeCount : t.changeCount = s.changeCount
  entries : ∀ e ∈ t.entries, e ∈ s.entries ∨ e.revision = s.changeCount

theorem Rewrites.refl {s : Snapshot} (h : s.Keyed) : s.Rewrites s :=
  ⟨h, rfl, fun _ he => Or.inl he⟩

theorem Rewrites.erase {s t : Snapshot} (h : s.Rewrites t) (k : Key) : s.Rewrites (t.erase k) :=
  ⟨keyed_erase h.keyed k, h.changeCount, fun e he => h.entries e (mem_erase he)⟩

theorem Rewrites.insert {s t : Snapshot} (h : s.Rewrites t) (r : Record) :
    s.Rewrites (t.insert r) := by
  refine ⟨keyed_insert h.keyed r, h.changeCount, ?_⟩
  intro e he
  rcases List.mem_cons.1 he with rfl | he
  · exact Or.inr h.changeCount
  · exact h.entries e (mem_erase he)

theorem Rewrites.eraseAll {s t : Snapshot} (h : s.Rewrites t) (ks : List Key) :
    s.Rewrites (t.eraseAll ks) := by
  induction ks generalizing t with
  | nil => exact h
  | cons k ks ih => exact ih (h.erase k)

theorem Rewrites.insertAll {s t : Snapshot} (h : s.Rewrites t) (rs : List Record) :
    s.Rewrites (t.insertAll rs) := by
  induction rs generalizing t with
  | nil => exact h
  | cons r rs ih => exact ih (h.insert r)

/-- A snapshot that a mutation leads to: the same one, or one that the next change count has been
written into. -/
def Succeeds (s t : Snapshot) : Prop :=
  t = s ∨ s.advance.Rewrites t

theorem keyed_advance {s : Snapshot} (h : s.Keyed) : s.advance.Keyed := h

end Snapshot

namespace Store

theorem upsertAll_succeeds {s : Store} (h : s.snapshot.Keyed) (rs : List Record) :
    s.snapshot.Succeeds (s.upsertAll rs).1.snapshot := by
  unfold upsertAll
  split
  · exact Or.inl rfl
  · exact Or.inr ((Snapshot.Rewrites.refl (Snapshot.keyed_advance h)).insertAll rs)

theorem eraseAll_succeeds {s : Store} (h : s.snapshot.Keyed) (ks : List Key) :
    s.snapshot.Succeeds (s.eraseAll ks).1.snapshot := by
  unfold eraseAll
  split
  · exact Or.inr ((Snapshot.Rewrites.refl (Snapshot.keyed_advance h)).eraseAll ks)
  · exact Or.inl rfl

theorem mutate_succeeds {s : Store} (h : s.snapshot.Keyed) (m : Mutation) :
    s.snapshot.Succeeds (s.mutate m).1.snapshot := by
  cases m with
  | register r =>
    exact upsertAll_succeeds (s := { s with nextToken := (r.resolveId s.nextToken).2 }) h
      (r.records (r.resolveId s.nextToken).1)
  | upsert r => exact upsertAll_succeeds h [r]
  | update id r =>
    exact Or.inr (((Snapshot.Rewrites.refl (Snapshot.keyed_advance h)).eraseAll _).insertAll _)
  | unregister id => exact eraseAll_succeeds h (keysOf id)
  | remove k => exact eraseAll_succeeds h [k]

theorem upsertAll_unheard {s : Store} {rs : List Record} (h : (s.upsertAll rs).2 = none) :
    (s.upsertAll rs).1 = s := by
  unfold upsertAll at h ⊢
  by_cases hrs : rs.isEmpty = true
  · rw [if_pos hrs]
  · rw [if_neg hrs] at h
    cases h

theorem eraseAll_unheard {s : Store} {ks : List Key} (h : (s.eraseAll ks).2 = none) :
    (s.eraseAll ks).1 = s := by
  unfold eraseAll at h ⊢
  by_cases hks : ks.any s.snapshot.contains = true
  · rw [if_pos hks] at h
    cases h
  · rw [if_neg hks]

theorem mutate_unheard {s : Store} {m : Mutation} (h : (s.mutate m).2.change = none) :
    (s.mutate m).1.snapshot = s.snapshot := by
  cases m with
  | register r =>
    have hs := @upsertAll_unheard { s with nextToken := (r.resolveId s.nextToken).2 }
      (r.records (r.resolveId s.nextToken).1) h
    exact (congrArg snapshot hs :)
  | upsert r => exact congrArg snapshot (@upsertAll_unheard s [r] h)
  | update id r => cases h
  | unregister id => exact congrArg snapshot (eraseAll_unheard h)
  | remove k => exact congrArg snapshot (eraseAll_unheard h)

def after (s : Store) (ms : List Mutation) : Store :=
  ms.foldl (fun s m => (s.mutate m).1) s

def annals (s : Store) (ms : List Mutation) : Set (Stored Record) :=
  {e | ∃ past, past <+: ms ∧ e ∈ (s.after past).snapshot.entries}

theorem after_concat (s : Store) (ms : List Mutation) (m : Mutation) :
    s.after (ms ++ [m]) = ((s.after ms).mutate m).1 := by
  simp [after]

theorem annals_mono {s : Store} {past ms : List Mutation} (h : past <+: ms) :
    s.annals past ⊆ s.annals ms := by
  rintro e ⟨earlier, he, hm⟩
  exact ⟨earlier, he.trans h, hm⟩

theorem mem_annals_concat {s : Store} {ms : List Mutation} {m : Mutation} {e : Stored Record} :
    e ∈ s.annals (ms ++ [m]) ↔
      e ∈ s.annals ms ∨ e ∈ (s.after (ms ++ [m])).snapshot.entries := by
  constructor
  · rintro ⟨past, hp, he⟩
    rcases List.prefix_concat_iff.1 hp with rfl | hp
    · exact Or.inr he
    · exact Or.inl ⟨past, hp, he⟩
  · rintro (⟨past, hp, he⟩ | he)
    · exact ⟨past, hp.trans (List.prefix_append ms [m]), he⟩
    · exact ⟨ms ++ [m], List.prefix_rfl, he⟩

structure Chronicle (s : Snapshot) (past : Set (Stored Record)) : Prop where
  keyed : s.Keyed
  recorded : ∀ e ∈ s.entries, e ∈ past
  dated : ∀ e ∈ past, 0 < e.revision ∧ e.revision ≤ s.changeCount
  unique : ∀ e ∈ past, ∀ e' ∈ past, e.record.key = e'.record.key → e.revision = e'.revision →
    e = e'

theorem Chronicle.succeeds {s t : Snapshot} {past : Set (Stored Record)} (h : Chronicle s past)
    (ht : s.Succeeds t) : Chronicle t {e | e ∈ past ∨ e ∈ t.entries} := by
  rcases ht with rfl | ht
  · have hpast : {e | e ∈ past ∨ e ∈ t.entries} = past := by
      ext e
      exact ⟨fun he => he.elim id (h.recorded e), Or.inl⟩
    rwa [hpast]
  · have hcount : t.changeCount = s.changeCount + 1 := ht.changeCount
    have hnew : ∀ e ∈ t.entries, e ∈ past ∨ e.revision = s.changeCount + 1 := by
      intro e he
      exact (ht.entries e he).imp (h.recorded e) id
    refine ⟨ht.keyed, fun e he => Or.inr he, ?_, ?_⟩
    · have hold : ∀ e ∈ past, 0 < e.revision ∧ e.revision ≤ t.changeCount := by
        intro e he
        have := h.dated e he
        omega
      rintro e (he | he)
      · exact hold e he
      · rcases hnew e he with he | he
        · exact hold e he
        · omega
    · -- Old entries are told apart by the past, new ones by their keys, and no new entry bears an
      -- old revision.
      have hmixed : ∀ e ∈ past, ∀ e' ∈ t.entries, e.record.key = e'.record.key →
          e.revision = e'.revision → e = e' := by
        intro e he e' he' hk hr
        rcases hnew e' he' with hp | hp
        · exact h.unique e he e' hp hk hr
        · have := (h.dated e he).2
          omega
      rintro e (he | he) e' (he' | he') hk hr
      · exact h.unique e he e' he' hk hr
      · exact hmixed e he e' he' hk hr
      · exact (hmixed e' he' e he hk.symm hr.symm).symm
      · exact List.inj_on_of_nodup_map ht.keyed he he' hk

theorem chronicle_after (nextToken : Nat) (ms : List Mutation) :
    Chronicle ((empty nextToken).after ms).snapshot ((empty nextToken).annals ms) := by
  induction ms using List.reverseRecOn with
  | nil =>
    have hnone : ∀ e, e ∉ (empty nextToken).annals [] := by
      rintro e ⟨past, hp, he⟩
      rw [List.prefix_nil.1 hp] at he
      cases he
    refine ⟨List.nodup_nil, ?_, ?_, ?_⟩
    · exact fun e he => absurd he List.not_mem_nil
    · exact fun e he => absurd he (hnone e)
    · exact fun e he => absurd he (hnone e)
  | append_singleton ms m ih =>
    have h := ih.succeeds (mutate_succeeds ih.keyed m)
    have hpast : (empty nextToken).annals (ms ++ [m]) = {e | e ∈ (empty nextToken).annals ms ∨
        e ∈ (((empty nextToken).after ms).mutate m).1.snapshot.entries} := by
      ext e
      rw [mem_annals_concat, after_concat]
      exact Iff.rfl
    rw [after_concat, hpast]
    exact h

end Store

end Reconciliation
