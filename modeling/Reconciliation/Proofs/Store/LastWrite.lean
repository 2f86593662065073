import Mathlib.Data.List.Range
import Reconciliation.Proofs.History
import Reconciliation.Proofs.Store.Revision

/-! # A store is a map of last writes

What is found under a key was put there by the last operation that wrote or deleted the key, and
bears the change count with which that operation was answered. No two operations share one.
-/
namespace Reconciliation

namespace Snapshot

theorem get?_erase (s : Snapshot) (k k' : Key) :
    (s.erase k).get? k' = if k' = k then none else s.get? k' := by
  unfold get? erase
  rw [List.find?_filter]
  by_cases hk : k' = k
  · subst hk
    simp
  · rw [if_neg hk]
    congr 1
    funext e
    by_cases he : e.record.key = k'
    · simp [he, hk]
    · simp [he]

theorem get?_insert (s : Snapshot) (r : Record) (k : Key) :
    (s.insert r).get? k = if k = r.key then some ⟨s.changeCount, r⟩ else s.get? k := by
  have hother := s.get?_erase r.key k
  unfold get? at hother ⊢
  rw [insert, List.find?_cons]
  by_cases hk : k = r.key
  · simp [hk]
  · have hne : (r.key == k) = false := beq_false_of_ne (Ne.symm hk)
    rw [if_neg hk] at hother ⊢
    simp only [hne]
    exact hother

theorem get?_eraseAll (s : Snapshot) (ks : List Key) (k : Key) :
    (s.eraseAll ks).get? k = if k ∈ ks then none else s.get? k := by
  induction ks generalizing s with
  | nil => simp [eraseAll]
  | cons k' ks ih =>
    have htail := ih (s.erase k')
    rw [get?_erase] at htail
    rw [show s.eraseAll (k' :: ks) = (s.erase k').eraseAll ks from rfl, htail]
    by_cases hk : k ∈ ks
    · simp [hk]
    · by_cases hk' : k = k' <;> simp [hk, hk']

theorem insertAll_changeCount (s : Snapshot) (rs : List Record) :
    (s.insertAll rs).changeCount = s.changeCount := by
  induction rs generalizing s with
  | nil => rfl
  | cons r rs ih => exact ih (s.insert r)

theorem eraseAll_changeCount (s : Snapshot) (ks : List Key) :
    (s.eraseAll ks).changeCount = s.changeCount := by
  induction ks generalizing s with
  | nil => rfl
  | cons k ks ih => exact ih (s.erase k)

/-- Of records with different keys each is found under its own, and bears the change count. -/
theorem get?_insertAll (s : Snapshot) {rs : List Record} (h : (rs.map Record.key).Nodup) (k : Key) :
    (s.insertAll rs).get? k =
      ((rs.find? fun r => r.key == k).map (Stored.mk s.changeCount)).or (s.get? k) := by
  induction rs generalizing s with
  | nil => rfl
  | cons r rs ih =>
    obtain ⟨hr, hrs⟩ := List.nodup_cons.1 h
    have htail := ih (s.insert r) hrs
    rw [get?_insert] at htail
    rw [show s.insertAll (r :: rs) = (s.insert r).insertAll rs from rfl, htail, List.find?_cons]
    by_cases hk : r.key = k
    · have hnone : (rs.find? fun r' => r'.key == k) = none := by
        apply List.find?_eq_none.2
        intro r' hr' hk'
        exact hr (List.mem_map.2 ⟨r', hr', (beq_iff_eq.1 hk').trans hk.symm⟩)
      simp [hk, hnone, insert]
    · have hne : (r.key == k) = false := beq_false_of_ne hk
      rw [if_neg (Ne.symm hk)]
      simp [hne, insert]

theorem get?_of_not_contains {s : Snapshot} {k : Key} (h : s.contains k = false) :
    s.get? k = none := by
  apply List.find?_eq_none.2
  intro e he
  simpa using List.any_eq_false.1 h e he

end Snapshot

theorem Record.ofProperties_key (kind : Kind) (id : ProviderId) (p : Properties)
    (source : Option ObjectSource) : (ofProperties kind id p source).key = ⟨kind, id⟩ := by
  cases kind <;> rfl

namespace Registration

variable (r : Registration) (id : ProviderId)

theorem records_keys : (r.records id).map Record.key = r.kinds.map fun kind => ⟨kind, id⟩ := by
  rw [records, List.map_map]
  apply List.map_congr_left
  intro kind _
  exact Record.ofProperties_key kind id r.properties r.source

theorem kinds_nodup : r.kinds.Nodup := by
  unfold kinds
  split <;> split <;> split <;> decide

theorem records_keys_nodup : ((r.records id).map Record.key).Nodup := by
  rw [records_keys]
  apply r.kinds_nodup.map
  intro kind kind' h
  exact congrArg Key.kind h

theorem mem_records_keys {k : Key} :
    k ∈ (r.records id).map Record.key ↔ k.kind ∈ r.kinds ∧ k.id = id := by
  rw [records_keys, List.mem_map]
  constructor
  · rintro ⟨kind, hkind, rfl⟩
    exact ⟨hkind, rfl⟩
  · rintro ⟨hkind, rfl⟩
    exact ⟨k.kind, hkind, rfl⟩

theorem records_any_kind (kind : Kind) :
    ((r.records id).any fun r' => r'.kind == kind) = true ↔ kind ∈ r.kinds := by
  have hkey : (⟨kind, id⟩ : Key) ∈ (r.records id).map Record.key ↔ kind ∈ r.kinds := by
    rw [mem_records_keys]
    exact and_iff_left rfl
  rw [← hkey, List.any_eq_true, List.mem_map]
  constructor
  · rintro ⟨r', hr', hkind⟩
    obtain ⟨kind', -, rfl⟩ := List.mem_map.1 hr'
    refine ⟨_, hr', ?_⟩
    have hof := Record.ofProperties_key kind' id r.properties r.source
    rw [hof, ← beq_iff_eq.1 hkind]
    exact congrArg (Key.mk · id) (congrArg Key.kind hof).symm
  · rintro ⟨r', hr', hk⟩
    exact ⟨r', hr', beq_iff_eq.2 (congrArg Key.kind hk)⟩

end Registration

namespace Store

variable (s : Store)

theorem mem_keysOf {id : ProviderId} {k : Key} : k ∈ keysOf id ↔ k.id = id := by
  obtain ⟨kind, id'⟩ := k
  cases kind <;> simp [keysOf]

/-- What an update drops: the keys under the id whose kinds are not declared. -/
theorem mem_dropped (id : ProviderId) (r : Registration) {k : Key} :
    k ∈ (keysOf id).filter (fun k => !(r.records id).any fun r' => r'.kind == k.kind) ↔
      k.id = id ∧ k.kind ∉ r.kinds := by
  rw [List.mem_filter, mem_keysOf]
  apply and_congr_right
  intro _
  rw [Bool.not_eq_true', ← Bool.not_eq_true, r.records_any_kind id k.kind]

theorem get?_upsertAll {rs : List Record} (h : (rs.map Record.key).Nodup) (k : Key) :
    (s.upsertAll rs).1.snapshot.get? k =
      ((rs.find? fun r => r.key == k).map (Stored.mk (s.changeCount + 1))).or
        (s.snapshot.get? k) := by
  unfold upsertAll
  split
  · next hnil => simp [List.isEmpty_iff.1 hnil]
  · exact s.snapshot.advance.get?_insertAll h k

theorem get?_eraseAll (ks : List Key) (k : Key) :
    (s.eraseAll ks).1.snapshot.get? k = if k ∈ ks then none else s.snapshot.get? k := by
  unfold eraseAll
  split
  · exact s.snapshot.advance.get?_eraseAll ks k
  · next hfree =>
    by_cases hk : k ∈ ks
    · have habsent : s.snapshot.contains k = false := by
        simp only [Bool.not_eq_true, List.any_eq_false] at hfree
        simpa using hfree k hk
      rw [if_pos hk]
      exact Snapshot.get?_of_not_contains habsent
    · rw [if_neg hk]

theorem upsertAll_heard {rs : List Record} {n : Nat} (h : (s.upsertAll rs).2 = some n) :
    n = s.changeCount + 1 ∧ (s.upsertAll rs).1.changeCount = n := by
  have hcount := s.snapshot.advance.insertAll_changeCount rs
  unfold upsertAll at h ⊢
  split at h
  · cases h
  · next hrs =>
    rw [if_neg hrs]
    exact ⟨(Option.some.inj h).symm.trans hcount, Option.some.inj h⟩

theorem eraseAll_heard {ks : List Key} {n : Nat} (h : (s.eraseAll ks).2 = some n) :
    n = s.changeCount + 1 ∧ (s.eraseAll ks).1.changeCount = n := by
  have hcount := s.snapshot.advance.eraseAll_changeCount ks
  unfold eraseAll at h ⊢
  split at h
  · next hks =>
    rw [if_pos hks]
    exact ⟨(Option.some.inj h).symm.trans hcount, Option.some.inj h⟩
  · cases h

theorem update_heard (id : ProviderId) (r : Registration) :
    (s.update id r).2 = some (s.changeCount + 1) ∧
      (s.update id r).1.changeCount = s.changeCount + 1 := by
  have hcount : (s.update id r).1.changeCount = s.changeCount + 1 := by
    refine (Snapshot.insertAll_changeCount _ _).trans ?_
    exact Snapshot.eraseAll_changeCount _ _
  exact ⟨congrArg some hcount, hcount⟩

theorem mutate_heard {m : Mutation} {n : Nat} (h : (s.mutate m).2.change = some n) :
    n = s.changeCount + 1 ∧ (s.mutate m).1.changeCount = n := by
  cases m with
  | register r =>
    exact { s with nextToken := (r.resolveId s.nextToken).2 }.upsertAll_heard h
  | upsert r => exact @upsertAll_heard s [r] n h
  | update id r =>
    obtain ⟨hanswer, hcount⟩ := s.update_heard id r
    have hn : s.changeCount + 1 = n := Option.some.inj (hanswer.symm.trans h)
    exact ⟨hn.symm, hcount.trans hn⟩
  | unregister id => exact s.eraseAll_heard h
  | remove k => exact s.eraseAll_heard h

structure Operation where
  before : Store
  mutation : Mutation

namespace Operation

def after (o : Operation) : Store :=
  (o.before.mutate o.mutation).1

def answer (o : Operation) : Mutation.Answer :=
  (o.before.mutate o.mutation).2

def id (o : Operation) : ProviderId :=
  match o.mutation with
  | .register r => (r.resolveId o.before.nextToken).1
  | .upsert r => r.id
  | .update id _ | .unregister id => id
  | .remove k => k.id

def built (o : Operation) : List Record :=
  match o.mutation with
  | .register r | .update _ r => r.records o.id
  | .upsert r => [r]
  | .unregister _ | .remove _ => []

def Deletes (o : Operation) (k : Key) : Prop :=
  match o.mutation with
  | .register _ | .upsert _ => False
  | .update id r => k.id = id ∧ k.kind ∉ r.kinds
  | .unregister id => k.id = id
  | .remove k' => k = k'

def Writes (o : Operation) (k : Key) : Prop :=
  k ∈ o.built.map Record.key

def Touches (o : Operation) (k : Key) : Prop :=
  o.Writes k ∨ o.Deletes k

instance : (o : Operation) → (k : Key) → Decidable (o.Deletes k)
  | ⟨_, .register _⟩, _ | ⟨_, .upsert _⟩, _ => inferInstanceAs (Decidable False)
  | ⟨_, .update id r⟩, k => inferInstanceAs (Decidable (k.id = id ∧ k.kind ∉ r.kinds))
  | ⟨_, .unregister id⟩, k => inferInstanceAs (Decidable (k.id = id))
  | ⟨_, .remove k'⟩, k => inferInstanceAs (Decidable (k = k'))

instance (o : Operation) (k : Key) : Decidable (o.Writes k) :=
  inferInstanceAs (Decidable (_ ∈ _))

instance (o : Operation) (k : Key) : Decidable (o.Touches k) :=
  inferInstanceAs (Decidable (_ ∨ _))

/-- What there is under a key that the operation touches: the record that it built, with the change
count that it answered. -/
def leaves (o : Operation) (k : Key) : Option (Stored Record) :=
  (o.built.find? fun r => r.key == k).bind fun r => o.answer.change.map fun n => ⟨n, r⟩

variable {o : Operation} {k : Key}

theorem writes_iff : o.Writes k ↔ (o.built.find? fun r => r.key == k).isSome = true := by
  rw [List.find?_isSome, Writes, List.mem_map]
  exact exists_congr fun r => and_congr_right fun _ => beq_iff_eq.symm

theorem built_keys_nodup (o : Operation) : (o.built.map Record.key).Nodup := by
  obtain ⟨s, m⟩ := o
  cases m with
  | register r => exact r.records_keys_nodup _
  | upsert r => exact List.nodup_singleton r.key
  | update id r => exact r.records_keys_nodup _
  | unregister id => exact List.nodup_nil
  | remove k => exact List.nodup_nil

theorem built_id {r : Record} (h : r ∈ o.built) : r.key.id = o.id := by
  obtain ⟨s, m⟩ := o
  cases m with
  | register r' => exact ((r'.mem_records_keys _).1 (List.mem_map_of_mem h)).2
  | upsert r' => exact congrArg (Key.id ∘ Record.key) (List.mem_singleton.1 h)
  | update id r' => exact ((r'.mem_records_keys _).1 (List.mem_map_of_mem h)).2
  | unregister id => cases h
  | remove k => cases h

theorem change_of_built (h : o.built ≠ []) : o.answer.change = some (o.before.changeCount + 1) := by
  have hupsertAll : ∀ (s : Store) (rs : List Record), rs ≠ [] →
      (s.upsertAll rs).2 = some (s.changeCount + 1) := by
    intro s rs hrs
    have hsome : ∃ n, (s.upsertAll rs).2 = some n := by
      unfold Store.upsertAll
      rw [if_neg (by simpa using hrs)]
      exact ⟨_, rfl⟩
    obtain ⟨n, hn⟩ := hsome
    rw [hn, (s.upsertAll_heard hn).1]
  obtain ⟨s, m⟩ := o
  cases m with
  | register r => exact hupsertAll { s with nextToken := (r.resolveId s.nextToken).2 } _ h
  | upsert r => exact hupsertAll s _ h
  | update id r => exact (s.update_heard id r).1
  | unregister id => exact absurd rfl h
  | remove k => exact absurd rfl h

theorem leaves_eq (o : Operation) (k : Key) :
    o.leaves k =
      (o.built.find? fun r => r.key == k).map (Stored.mk (o.before.changeCount + 1)) := by
  unfold leaves
  cases hr : o.built.find? fun r => r.key == k with
  | none => rfl
  | some r => simp [change_of_built (List.ne_nil_of_mem (List.mem_of_find?_eq_some hr))]

/-- What the operation writes goes before what it deletes, and that before what was there. -/
theorem get?_after (o : Operation) (k : Key) :
    o.after.snapshot.get? k = if o.Touches k then o.leaves k else o.before.snapshot.get? k := by
  have hafter : o.after.snapshot.get? k =
      (o.leaves k).or (if o.Deletes k then none else o.before.snapshot.get? k) := by
    rw [leaves_eq]
    obtain ⟨s, m⟩ := o
    cases m with
    | register r =>
      exact { s with nextToken := (r.resolveId s.nextToken).2 }.get?_upsertAll
        (r.records_keys_nodup _) k
    | upsert r => exact @get?_upsertAll s [r] (List.nodup_singleton r.key) k
    | update id r =>
      refine (Snapshot.get?_insertAll _ (r.records_keys_nodup id) k).trans ?_
      rw [Snapshot.get?_eraseAll, Snapshot.eraseAll_changeCount]
      exact congrArg (Option.or _) (if_congr (Store.mem_dropped id r) rfl rfl)
    | unregister id =>
      exact (s.get?_eraseAll (Store.keysOf id) k).trans (if_congr Store.mem_keysOf rfl rfl)
    | remove k' =>
      exact (s.get?_eraseAll [k'] k).trans (if_congr List.mem_singleton rfl rfl)
  have hleaves : o.Writes k ↔ (o.leaves k).isSome = true := by
    rw [leaves_eq, Option.isSome_map]
    exact writes_iff
  rw [hafter]
  cases hk : o.leaves k with
  | some e =>
    have htouches : o.Touches k := Or.inl (hleaves.2 (by rw [hk]; rfl))
    rw [if_pos htouches]
    rfl
  | none =>
    have hnone : ¬ o.Writes k := fun hw => by simpa [hk] using hleaves.1 hw
    exact if_congr (or_iff_right hnone).symm rfl rfl

theorem leaves_of_mem_built {r : Record} (h : r ∈ o.built) :
    o.leaves r.key = some ⟨o.before.changeCount + 1, r⟩ := by
  have hfind : (o.built.find? fun r' => r'.key == r.key).isSome = true :=
    List.find?_isSome.2 ⟨r, h, beq_self_eq_true r.key⟩
  obtain ⟨r', hr'⟩ := Option.isSome_iff_exists.1 hfind
  have hmem : r' ∈ o.built := List.mem_of_find?_eq_some hr'
  have hkey : r'.key = r.key := by simpa using List.find?_some hr'
  have hsame : r' = r := List.inj_on_of_nodup_map o.built_keys_nodup hmem h hkey
  rw [leaves_eq, hr', hsame]
  rfl

/-- What an operation writes is there when it is over, all of it under the count that it answers. -/
theorem built_together (h : o.built ≠ []) : ∃ n, o.answer.change = some n ∧
    ∀ r ∈ o.built, o.after.snapshot.get? r.key = some ⟨n, r⟩ := by
  refine ⟨o.before.changeCount + 1, change_of_built h, ?_⟩
  intro r hr
  have htouches : o.Touches r.key := Or.inl (List.mem_map_of_mem hr)
  rw [get?_after, if_pos htouches, leaves_of_mem_built hr]

theorem touches_id (h : o.Touches k) : k.id = o.id := by
  rcases h with hw | hd
  · obtain ⟨r, hr, rfl⟩ := List.mem_map.1 hw
    exact built_id hr
  · obtain ⟨s, m⟩ := o
    cases m with
    | register r => exact hd.elim
    | upsert r => exact hd.elim
    | update id r => exact hd.1
    | unregister id => exact hd
    | remove k' => exact congrArg Key.id hd

theorem get?_after_of_ne (h : k.id ≠ o.id) :
    o.after.snapshot.get? k = o.before.snapshot.get? k := by
  rw [get?_after, if_neg fun ht => h (touches_id ht)]

theorem register_keeps {r : Registration} (h : o.mutation = .register r)
    (hkind : k.kind ∉ r.kinds) : o.after.snapshot.get? k = o.before.snapshot.get? k := by
  obtain ⟨s, m⟩ := o
  obtain rfl : m = .register r := h
  rw [get?_after, if_neg]
  rintro (hw | hd)
  · exact hkind ((r.mem_records_keys _).1 hw).1
  · exact hd

theorem update_replaces {id : ProviderId} {r : Registration} (h : o.mutation = .update id r)
    (kind : Kind) : (o.after.snapshot.get? ⟨kind, id⟩).isSome = true ↔ kind ∈ r.kinds := by
  obtain ⟨s, m⟩ := o
  obtain rfl : m = .update id r := h
  have hwrites : Operation.Writes ⟨s, .update id r⟩ ⟨kind, id⟩ ↔ kind ∈ r.kinds :=
    (r.mem_records_keys id).trans (and_iff_left rfl)
  have htouches : Operation.Touches ⟨s, .update id r⟩ ⟨kind, id⟩ := by
    by_cases hkind : kind ∈ r.kinds
    · exact Or.inl (hwrites.2 hkind)
    · exact Or.inr ⟨rfl, hkind⟩
  rw [get?_after, if_pos htouches, leaves_eq, Option.isSome_map, ← writes_iff]
  exact hwrites

def lastOn? (k : Key) (ops : List Operation) : Option Operation :=
  ops.reverse.find? fun o => o.Touches k

theorem lastOn?_concat (k : Key) (ops : List Operation) (o : Operation) :
    lastOn? k (ops ++ [o]) = if o.Touches k then some o else lastOn? k ops := by
  rw [lastOn?, List.reverse_concat, List.find?_cons]
  by_cases hk : o.Touches k
  · simp [hk]
  · simp [hk, lastOn?]

end Operation

def operations (s : Store) (ms : List Mutation) : List Operation :=
  history (fun s m => (s.mutate m).1) (fun s m => [⟨s, m⟩]) s ms

theorem operations_concat (s : Store) (ms : List Mutation) (m : Mutation) :
    s.operations (ms ++ [m]) = s.operations ms ++ [⟨s.after ms, m⟩] :=
  history_concat _ _ s ms m

theorem get?_empty_after (nextToken : Nat) (ms : List Mutation) (k : Key) :
    ((empty nextToken).after ms).snapshot.get? k =
      (Operation.lastOn? k ((empty nextToken).operations ms)).bind fun o => o.leaves k := by
  induction ms using List.reverseRecOn with
  | nil => rfl
  | append_singleton ms m ih =>
    have hstep := Operation.get?_after ⟨(empty nextToken).after ms, m⟩ k
    rw [after_concat, operations_concat, Operation.lastOn?_concat]
    refine hstep.trans ?_
    split
    · rfl
    · exact ih

theorem changes_empty (nextToken : Nat) (ms : List Mutation) :
    ((empty nextToken).operations ms).filterMap (fun o => o.answer.change) =
      List.range' 1 ((empty nextToken).after ms).changeCount := by
  induction ms using List.reverseRecOn with
  | nil => rfl
  | append_singleton ms m ih =>
    generalize hs : (empty nextToken).after ms = s at ih
    rw [operations_concat, after_concat, hs, List.filterMap_append, ih]
    cases hchange : (s.mutate m).2.change with
    | none =>
      have hcount : (s.mutate m).1.changeCount = s.changeCount :=
        congrArg Snapshot.changeCount (mutate_unheard hchange)
      simp [Operation.answer, hchange, hcount]
    | some n =>
      obtain ⟨rfl, hcount⟩ := s.mutate_heard hchange
      rw [hcount, List.range'_1_concat, Nat.add_comm 1 s.changeCount]
      simp [Operation.answer, hchange]

structure HoldsLastWrites (s : Store) (ops : List Operation) : Prop where
  keyed : s.snapshot.Keyed
  present : ∀ k, (s.snapshot.get? k).isSome = true ↔
    ∃ o, Operation.lastOn? k ops = some o ∧ o.Writes k
  /-- A record was built by that operation and bears the change count that it answered. -/
  written : ∀ k o, Operation.lastOn? k ops = some o → o.Writes k →
    ∃ r ∈ o.built, r.key = k ∧
      ∃ n, o.answer.change = some n ∧ s.snapshot.get? k = some ⟨n, r⟩
  together : ∀ o ∈ ops, o.built ≠ [] → ∃ n, o.answer.change = some n ∧
    ∀ r ∈ o.built, o.after.snapshot.get? r.key = some ⟨n, r⟩
  /-- No two changes share a count. -/
  changes : ops.filterMap (fun o => o.answer.change) = List.range' 1 s.changeCount
  idle : ∀ o ∈ ops, o.answer.change = none → o.after.snapshot = o.before.snapshot
  dated : ∀ e ∈ s.snapshot.entries, e.revision ≤ s.changeCount
  registered : ∀ o ∈ ops, ∀ r, o.mutation = .register r → ∀ k : Key, k.kind ∉ r.kinds →
    o.after.snapshot.get? k = o.before.snapshot.get? k
  updated : ∀ o ∈ ops, ∀ id r, o.mutation = .update id r → ∀ kind,
    (o.after.snapshot.get? ⟨kind, id⟩).isSome = true ↔ kind ∈ r.kinds
  others : ∀ o ∈ ops, ∀ k, k.id ≠ o.id → o.after.snapshot.get? k = o.before.snapshot.get? k

theorem empty_holdsLastWrites (nextToken : Nat) (ms : List Mutation) :
    ((empty nextToken).after ms).HoldsLastWrites ((empty nextToken).operations ms) := by
  have hget := get?_empty_after nextToken ms
  have hchronicle := chronicle_after nextToken ms
  constructor
  · exact hchronicle.keyed
  · intro k
    rw [hget k]
    cases Operation.lastOn? k ((empty nextToken).operations ms) with
    | none => simp
    | some o => simp [Operation.leaves_eq, Operation.writes_iff]
  · intro k o hlast hwrites
    obtain ⟨r, hr, rfl⟩ := List.mem_map.1 hwrites
    refine ⟨r, hr, rfl, o.before.changeCount + 1, ?_, ?_⟩
    · exact Operation.change_of_built (List.ne_nil_of_mem hr)
    · rw [hget, hlast]
      exact Operation.leaves_of_mem_built hr
  · exact fun o _ => Operation.built_together
  · exact changes_empty nextToken ms
  · exact fun o _ => mutate_unheard
  · intro e he
    exact (hchronicle.dated e (hchronicle.recorded e he)).2
  · exact fun o _ r hr k => Operation.register_keeps hr
  · exact fun o _ id r hr => Operation.update_replaces hr
  · exact fun o _ k => Operation.get?_after_of_ne

end Store

end Reconciliation
