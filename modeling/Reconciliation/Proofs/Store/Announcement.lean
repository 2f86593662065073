import Reconciliation.Store.Listener
import Reconciliation.Proofs.Store.LastWrite

/-! # What a listener is told

Every effective mutation advances the change count by one and is told once; of all others only an
update that finds nothing and leaves nothing is counted.
-/
namespace Reconciliation

theorem Snapshot.contains_eq (s : Snapshot) (k : Key) : s.contains k = (s.get? k).isSome := by
  rw [get?, List.isSome_find?, contains]

theorem Registration.records_eq_nil_iff {r : Registration} {id : ProviderId} :
    r.records id = [] ↔ r.kinds = [] := by
  rw [records, List.map_eq_nil_iff]

namespace Store

theorem upsertAll_change_isSome {s : Store} {rs : List Record} :
    (s.upsertAll rs).2.isSome = true ↔ rs ≠ [] := by
  unfold upsertAll
  split
  · next hnil => simpa using hnil
  · next hne => simpa [publish] using hne

theorem eraseAll_change_isSome {s : Store} {ks : List Key} :
    (s.eraseAll ks).2.isSome = true ↔ ∃ k ∈ ks, (s.snapshot.get? k).isSome = true := by
  have hany : ks.any s.snapshot.contains = true ↔
      ∃ k ∈ ks, (s.snapshot.get? k).isSome = true := by
    simp only [List.any_eq_true, Snapshot.contains_eq]
  rw [← hany]
  unfold eraseAll
  split
  · next htaken => simpa [publish] using htaken
  · next hfree => simpa using hfree

namespace Operation

/-- It puts a record into the store, in the place of another or not, or takes one away. -/
def IsEffective (o : Operation) : Prop :=
  o.built ≠ [] ∨ ∃ k, o.Deletes k ∧ (o.before.snapshot.get? k).isSome = true

def IsIdleUpdate (o : Operation) : Prop :=
  ∃ id r, o.mutation = .update id r ∧ r.kinds = [] ∧
    ∀ k : Key, k.id = id → o.before.snapshot.get? k = none

theorem not_isIdleUpdate {s : Store} {m : Mutation} (h : ∀ id r, m ≠ .update id r) :
    ¬ (⟨s, m⟩ : Operation).IsIdleUpdate :=
  fun ⟨id, r, hm, _⟩ => h id r hm

theorem isEffective_iff_of_built_eq_nil {o : Operation} (h : o.built = []) :
    o.IsEffective ↔ ∃ k, o.Deletes k ∧ (o.before.snapshot.get? k).isSome = true := by
  rw [IsEffective, or_iff_right (not_not_intro h)]

theorem change_isSome_iff (o : Operation) :
    o.answer.change.isSome = true ↔ o.IsEffective ∨ o.IsIdleUpdate := by
  obtain ⟨s, m⟩ := o
  cases m with
  | register r =>
    have hdeletes : ¬ ∃ k, Deletes ⟨s, .register r⟩ k ∧ (s.snapshot.get? k).isSome = true :=
      fun ⟨_, h, _⟩ => h
    rw [or_iff_left (not_isIdleUpdate (by simp)), IsEffective, or_iff_left hdeletes]
    exact upsertAll_change_isSome (s := { s with nextToken := (r.resolveId s.nextToken).2 })
  | upsert r =>
    have hchange : (s.upsertAll [r]).2.isSome = true :=
      upsertAll_change_isSome.2 (List.cons_ne_nil r [])
    exact iff_of_true hchange (Or.inl (Or.inl (List.cons_ne_nil r [])))
  | update id r =>
    refine iff_of_true rfl ?_
    by_cases hbuilt : r.records id = []
    · by_cases hfound : ∃ k : Key, k.id = id ∧ (s.snapshot.get? k).isSome = true
      · obtain ⟨k, hid, hk⟩ := hfound
        have hkind : k.kind ∉ r.kinds := by simp [Registration.records_eq_nil_iff.1 hbuilt]
        exact Or.inl (Or.inr ⟨k, ⟨hid, hkind⟩, hk⟩)
      · refine Or.inr ⟨id, r, rfl, Registration.records_eq_nil_iff.1 hbuilt, ?_⟩
        intro k hid
        simpa using fun hk => hfound ⟨k, hid, hk⟩
    · exact Or.inl (Or.inl hbuilt)
  | unregister id =>
    rw [or_iff_left (not_isIdleUpdate (by simp)), isEffective_iff_of_built_eq_nil rfl]
    refine eraseAll_change_isSome.trans ?_
    simp only [mem_keysOf]
    rfl
  | remove k' =>
    rw [or_iff_left (not_isIdleUpdate (by simp)), isEffective_iff_of_built_eq_nil rfl]
    refine eraseAll_change_isSome.trans ?_
    simp only [List.mem_singleton]
    rfl

theorem IsIdleUpdate.not_isEffective {o : Operation} (h : o.IsIdleUpdate) : ¬ o.IsEffective := by
  obtain ⟨s, m⟩ := o
  obtain ⟨id, r, hm, hkinds, hfree⟩ := h
  obtain rfl : m = .update id r := hm
  rintro (hbuilt | ⟨k, ⟨hid, -⟩, hk⟩)
  · exact hbuilt (Registration.records_eq_nil_iff.2 hkinds)
  · have hnone : s.snapshot.get? k = none := hfree k hid
    rw [show (Operation.mk s (.update id r)).before.snapshot.get? k = none from hnone] at hk
    cases hk

theorem leaves_of_built_eq_nil {o : Operation} (h : o.built = []) (k : Key) : o.leaves k = none := by
  rw [leaves, h]
  rfl

/-- What is effective can be seen, and nothing else can: a record that is put in the place of an
equal one bears another revision. -/
theorem isEffective_iff_get?_ne {o : Operation}
    (hdated : ∀ e ∈ o.before.snapshot.entries, e.revision ≤ o.before.changeCount) :
    o.IsEffective ↔ ∃ k, o.after.snapshot.get? k ≠ o.before.snapshot.get? k := by
  by_cases hbuilt : o.built = []
  · rw [isEffective_iff_of_built_eq_nil hbuilt]
    apply exists_congr
    intro k
    have htouches : o.Touches k ↔ o.Deletes k := by simp [Touches, Writes, hbuilt]
    rw [get?_after, leaves_of_built_eq_nil hbuilt, if_congr htouches rfl rfl]
    by_cases hdeletes : o.Deletes k
    · rw [if_pos hdeletes, and_iff_right hdeletes, Option.isSome_iff_ne_none]
      exact ne_comm
    · simp [hdeletes]
  · refine iff_of_true (Or.inl hbuilt) ?_
    obtain ⟨r, hr⟩ := List.exists_mem_of_ne_nil _ hbuilt
    have htouches : o.Touches r.key := Or.inl (List.mem_map_of_mem hr)
    refine ⟨r.key, fun hsame => ?_⟩
    rw [get?_after, if_pos htouches, leaves_of_mem_built hr] at hsame
    have hlate : o.before.changeCount + 1 ≤ o.before.changeCount :=
      hdated _ (List.mem_of_find?_eq_some hsame.symm)
    omega

end Operation

end Store

namespace Announcer

variable {σ : Type}

def after (w : Announcer σ) (ms : List Mutation) : Announcer σ :=
  ms.foldl (fun w m => (w.mutate m).1) w

variable (s : Store) (hear : Listener σ) (memory : σ)

theorem mutate_of_change {m : Mutation} {n : Nat} (h : (s.mutate m).2.change = some n) :
    n = s.changeCount + 1 ∧ ((⟨s, some hear, memory⟩ : Announcer σ).mutate m).1 =
      ⟨(s.mutate m).1, some hear, hear memory (s.changeCount + 1)⟩ := by
  obtain ⟨rfl, -⟩ := s.mutate_heard h
  simp [mutate, Listener.tell, h]

theorem mutate_of_no_change {m : Mutation} (h : (s.mutate m).2.change = none) :
    ((⟨s, some hear, memory⟩ : Announcer σ).mutate m).1 =
      ⟨(s.mutate m).1, some hear, memory⟩ := by
  simp [mutate, Listener.tell, h]

/-- However many changes mutations come to, just the counts that they lead to are told. -/
theorem after_tells (ms : List Mutation) : ∃ n,
    ((⟨s, some hear, memory⟩ : Announcer σ).after ms).store.changeCount = s.changeCount + n ∧
    ((⟨s, some hear, memory⟩ : Announcer σ).after ms).memory =
      (List.range' (s.changeCount + 1) n).foldl hear memory := by
  induction ms generalizing s memory with
  | nil => exact ⟨0, rfl, rfl⟩
  | cons m ms ih =>
    have hstep : (⟨s, some hear, memory⟩ : Announcer σ).after (m :: ms) =
        (((⟨s, some hear, memory⟩ : Announcer σ).mutate m).1).after ms := rfl
    rw [hstep]
    cases hchange : (s.mutate m).2.change with
    | none =>
      have hcount : (s.mutate m).1.changeCount = s.changeCount :=
        congrArg Snapshot.changeCount (Store.mutate_unheard hchange)
      rw [mutate_of_no_change s hear memory hchange, ← hcount]
      exact ih (s.mutate m).1 memory
    | some n =>
      obtain ⟨rfl, hcount⟩ := s.mutate_heard hchange
      obtain ⟨n, hlast, htold⟩ := ih (s.mutate m).1 (hear memory (s.changeCount + 1))
      rw [(mutate_of_change s hear memory hchange).2]
      refine ⟨n + 1, ?_, ?_⟩
      · rw [hlast, hcount]
        omega
      · rw [htold, hcount, List.range'_succ, List.foldl_cons]

/-- Whatever mutations have led there: but for idle updates, a mutation that has an effect advances
the count by one and is told once, with the new count, and any other leaves the snapshot as it was
and is not told. A listener that stays hears the consecutive counts, those of idle updates too. -/
theorem announces_effective_mutations (nextToken : Nat) (past : List Mutation) :
    let s := (Store.empty nextToken).after past
    let w : Announcer σ := ⟨s, some hear, memory⟩
    (∀ m, (⟨s, m⟩ : Store.Operation).IsEffective ↔
      ∃ k, (w.mutate m).1.store.snapshot.get? k ≠ s.snapshot.get? k) ∧
    (∀ m, ¬ (⟨s, m⟩ : Store.Operation).IsIdleUpdate →
      ((⟨s, m⟩ : Store.Operation).IsEffective →
        (w.mutate m).1.store.changeCount = s.changeCount + 1 ∧
          (w.mutate m).1.memory = hear memory (s.changeCount + 1)) ∧
      (¬ (⟨s, m⟩ : Store.Operation).IsEffective →
        (w.mutate m).1.store.snapshot = s.snapshot ∧ (w.mutate m).1.memory = memory)) ∧
    ∀ ms, (w.after ms).memory = (List.range' (s.changeCount + 1)
      ((w.after ms).store.changeCount - s.changeCount)).foldl hear memory := by
  intro s w
  refine ⟨?_, ?_, ?_⟩
  · intro m
    have hchronicle := Store.chronicle_after nextToken past
    apply Store.Operation.isEffective_iff_get?_ne
    exact fun e he => (hchronicle.dated e (hchronicle.recorded e he)).2
  · intro m hidle
    have hchange := (⟨s, m⟩ : Store.Operation).change_isSome_iff
    rw [or_iff_left hidle] at hchange
    rw [← hchange]
    constructor
    · intro hsome
      obtain ⟨n, hn⟩ := Option.isSome_iff_exists.1 hsome
      obtain ⟨rfl, hw⟩ := mutate_of_change s hear memory hn
      rw [hw]
      exact ⟨(s.mutate_heard hn).2, rfl⟩
    · intro hnone
      have hn : (s.mutate m).2.change = none := Option.not_isSome_iff_eq_none.1 hnone
      rw [mutate_of_no_change s hear memory hn]
      exact ⟨Store.mutate_unheard hn, rfl⟩
  · intro ms
    obtain ⟨n, hcount, htold⟩ := after_tells s hear memory ms
    rw [htold, hcount, Nat.add_sub_cancel_left]

def pair : Registration :=
  { properties := .ofList [(Keys.serviceId, .integer 5), (Keys.resource, .flag true),
      (Keys.extension, .flag true)]
    id := none
    source := none }

def bare : Registration :=
  ⟨.empty, none, none⟩

/-- Both providers go with one update, which is told once. The same update once more finds nothing
and is told too, while a removal that finds nothing is not. -/
theorem dropped_pair_announced :
    let s := (Store.empty 1).after [.register pair]
    let w : Announcer (List Nat) := ⟨s, some .scribe, []⟩
    let drop : Mutation := .update (.registered 5) bare
    ¬ (⟨s, drop⟩ : Store.Operation).IsIdleUpdate ∧
      (⟨s, drop⟩ : Store.Operation).IsEffective ∧
      (w.mutate drop).1.store.changeCount = 2 ∧ (w.mutate drop).1.memory = [2] ∧
      (w.after [drop, drop, .remove ⟨.resource, .registered 5⟩]).memory = [2, 3] := by
  intro s w drop
  obtain ⟨-, hmutate, hafter⟩ := announces_effective_mutations .scribe [] 1 [.register pair]
  have hfound : (s.snapshot.get? ⟨.resource, .registered 5⟩).isSome = true := by decide +kernel
  have hidle : ¬ (⟨s, drop⟩ : Store.Operation).IsIdleUpdate := by
    rintro ⟨_, _, ⟨⟩, -, hfree⟩
    have hnone : s.snapshot.get? ⟨.resource, .registered 5⟩ = none := hfree _ rfl
    rw [hnone] at hfound
    cases hfound
  have heffective : (⟨s, drop⟩ : Store.Operation).IsEffective :=
    Or.inr ⟨⟨.resource, .registered 5⟩, ⟨rfl, by decide +kernel⟩, hfound⟩
  obtain ⟨hcount, htold⟩ := (hmutate drop hidle).1 heffective
  refine ⟨hidle, heffective, hcount, htold, ?_⟩
  rw [hafter]
  decide +kernel

/-- Where nothing was ever stored, an update to nothing has no effect, and yet it advances the count
and is told. -/
theorem idle_update_is_announced :
    let o : Store.Operation := ⟨.empty 1, .update (.registered 9) bare⟩
    let w : Announcer (List Nat) := ⟨.empty 1, some .scribe, []⟩
    ¬ o.IsEffective ∧ o.after.snapshot.entries = [] ∧ o.after.changeCount = 1 ∧
      (w.mutate o.mutation).1.memory = [1] := by
  intro o w
  have hidle : o.IsIdleUpdate := ⟨.registered 9, bare, rfl, by decide +kernel, fun _ _ => rfl⟩
  exact ⟨hidle.not_isEffective, rfl, rfl, rfl⟩

end Announcer

end Reconciliation
