import Mathlib.Algebra.GroupWithZero.Nat
import Mathlib.Data.List.Count
import Reconciliation.Deployment.Memory
import Reconciliation.Proofs.History
import Reconciliation.Proofs.Provider.Classification
import Reconciliation.Proofs.Store.LastWrite
import Reconciliation.Workbench

/-! # Leases

Every lease that a source grants is given back at once, and is put down to a provider of its own
that was built from the source: its class is read once, whoever asks for it.
-/
namespace Reconciliation

namespace Ledger

variable {ι : Type}

theorem tally_setTally (l : Ledger ι) (n n' : Nat) (t : Tally) :
    (l.setTally n t).tally n' = if n' = n then t else l.tally n' := by
  have hothers : ∀ es : List (Nat × Tally), n' ≠ n →
      (es.filter fun e => e.1 != n).lookup n' = es.lookup n' := by
    intro es hn
    induction es with
    | nil => rfl
    | cons e es ih =>
      obtain ⟨m, u⟩ := e
      by_cases hm : m = n
      · have hne : (n' == m) = false := beq_false_of_ne (hm ▸ hn)
        simp [hm, List.lookup_cons, ih, hm ▸ hne]
      · simp [hm, List.lookup_cons, ih]
  unfold tally setTally
  by_cases hn : n' = n
  · simp [hn]
  · have hne : (n' == n) = false := beq_false_of_ne hn
    simp [List.lookup_cons, hne, hn, hothers _ hn]

theorem tally_classify (l : Ledger ι) (s : ObjectSource) (n : Nat) :
    (l.classify s).2.tally n = if n = s.number ∧ s.classOf.isSome then
      ⟨(l.tally n).granted + 1, (l.tally n).held⟩ else l.tally n := by
  unfold classify acquire release
  cases s.classOf with
  | none => simp
  | some k =>
    by_cases hn : n = s.number
    · subst hn
      simp [tally_setTally]
    · simp [tally_setTally, hn]

theorem reads_classify (l : Ledger ι) (s : ObjectSource) : (l.classify s).2.reads = l.reads := by
  unfold classify acquire release
  cases s.classOf <;> rfl

/-- Nothing is held, and every lease that was granted is put down to a provider of its own, one that
has been read and that may have caused a lease on this source. -/
def Accounted (may : Nat → ι → Prop) (l : Ledger ι) : Prop :=
  ∀ n, ∃ owners : List ι, owners.Nodup ∧ owners ⊆ l.reads ∧ (∀ i ∈ owners, may n i) ∧
    l.tally n = ⟨owners.length, 0⟩

theorem accounted_empty (may : Nat → ι → Prop) : (empty : Ledger ι).Accounted may :=
  fun _ => ⟨[], List.nodup_nil, List.nil_subset _, List.forall_mem_nil _, rfl⟩

namespace Accounted

variable {may may' : Nat → ι → Prop} {l : Ledger ι}

theorem mono (h : l.Accounted may) (hmay : ∀ n i, may n i → may' n i) : l.Accounted may' := by
  intro n
  obtain ⟨owners, hnodup, hreads, howners, htally⟩ := h n
  exact ⟨owners, hnodup, hreads, fun i hi => hmay n i (howners i hi), htally⟩

/-- No more leases are granted than there are providers that may cause one. -/
theorem granted_le (h : l.Accounted may) {n : Nat} {all : List ι} (hall : ∀ i, may n i → i ∈ all) :
    (l.tally n).granted ≤ all.length := by
  obtain ⟨owners, hnodup, -, howners, htally⟩ := h n
  rw [htally]
  exact (List.subperm_of_subset hnodup fun i hi => hall i (howners i hi)).length_le

variable [DecidableEq ι]

theorem readClass (h : l.Accounted may) {i : ι} {c : Content}
    (hmay : ∀ s ∈ c.source, may s.number i) : (l.readClass i c).Accounted may := by
  unfold Ledger.readClass
  split
  · exact h
  · rename_i hi
    intro n
    obtain ⟨owners, hnodup, hreads, howners, htally⟩ := h n
    have hold : owners ⊆ i :: l.reads := fun j hj => List.mem_cons_of_mem i (hreads hj)
    cases hs : c.source with
    | none => exact ⟨owners, hnodup, hold, howners, htally⟩
    | some s =>
      have htaken := l.tally_classify s n
      simp only [reads_classify]
      by_cases hn : n = s.number ∧ s.classOf.isSome
      · rw [if_pos hn, htally] at htaken
        refine ⟨i :: owners, List.nodup_cons.2 ⟨fun hj => hi (hreads hj), hnodup⟩,
          List.cons_subset_cons i hreads, ?_, htaken⟩
        intro j hj
        rcases List.mem_cons.1 hj with rfl | hj
        · exact hn.1 ▸ hmay s hs
        · exact howners j hj
      · rw [if_neg hn, htally] at htaken
        exact ⟨owners, hnodup, hold, howners, htaken⟩

theorem readStatus (h : l.Accounted may) {i : ι} {c : Content}
    (hmay : c.profile.fault = none → ∀ s ∈ c.source, may s.number i) :
    (l.readStatus i c).Accounted may := by
  unfold Ledger.readStatus
  split
  · exact h
  · rename_i hvalid
    exact h.readClass (hmay (Option.not_isSome_iff_eq_none.1 hvalid))

end Accounted

end Ledger

def Stored.tag (e : Stored Record) : Key × Nat :=
  (e.record.key, e.revision)

def Record.carries (n : Nat) (r : Record) : Bool :=
  (r.content?.bind Content.source).any fun s => s.number == n

theorem Record.carries_source {c : Content} {s : ObjectSource} (h : s ∈ c.source) :
    (Record.content c).carries s.number = true := by
  simp [carries, content?, Option.mem_def.1 h]

/-- Whether the properties of the record are valid; nothing is asked about its object. -/
def Record.isValid (r : Record) : Bool :=
  r.profile.fault.isNone

/-- How many content providers are built from this source: one for each kind of content that is
declared. -/
def Registration.builds (n : Nat) (r : Registration) : Nat :=
  if r.source.map ObjectSource.number = some n then (r.kinds.filter (· != .application)).length
  else 0

def Registration.isValid (r : Registration) : Bool :=
  Check.all.all fun check => (check.cause? r.properties).isNone

namespace Mutation

def builds (n : Nat) : Mutation → Nat
  | register r | update _ r => r.builds n
  | upsert r => if r.carries n then 1 else 0
  | unregister _ | remove _ => 0

def buildsValid (n : Nat) : Mutation → Nat
  | register r | update _ r => if r.isValid then r.builds n else 0
  | upsert r => if r.carries n && r.isValid then 1 else 0
  | unregister _ | remove _ => 0

def records (s : Store) : Mutation → List Record
  | register r => r.records (r.resolveId s.nextToken).1
  | update id r => r.records id
  | upsert r => [r]
  | unregister _ | remove _ => []

end Mutation

namespace Registration

variable (r : Registration) (id : ProviderId)

theorem carries_ofProperties (n : Nat) (kind : Kind) :
    (Record.ofProperties kind id r.properties r.source).carries n =
      (kind != .application && decide (r.source.map ObjectSource.number = some n)) := by
  cases kind with
  | application => rfl
  | resource | extension =>
    cases hs : r.source with
    | none => simp [Record.ofProperties, Record.carries, Record.content?, Content.ofProperties]
    | some s =>
      simp [Record.ofProperties, Record.carries, Record.content?, Content.ofProperties,
        Bool.beq_eq_decide_eq]

theorem isValid_ofProperties (n : Nat) (kind : Kind) :
    ((Record.ofProperties kind id r.properties r.source).carries n &&
        (Record.ofProperties kind id r.properties r.source).isValid) =
      (r.isValid && (Record.ofProperties kind id r.properties r.source).carries n) := by
  have hvalid : ∀ kind : ContentKind,
      (Content.ofProperties kind id r.properties r.source).profile.fault.isNone = r.isValid := by
    intro kind
    rw [Check.fault_eq_findSome?, Bool.eq_iff_iff, Option.isNone_iff_eq_none,
      List.findSome?_eq_none_iff, isValid, List.all_eq_true]
    simp only [Option.isNone_iff_eq_none]
  cases kind with
  | application => simp [carries_ofProperties]
  | resource => rw [Bool.and_comm, ← hvalid .resource]; rfl
  | extension => rw [Bool.and_comm, ← hvalid .extension]; rfl

theorem countP_carries (n : Nat) : (r.records id).countP (Record.carries n) = r.builds n := by
  rw [records, List.countP_map, builds]
  by_cases hn : r.source.map ObjectSource.number = some n
  · rw [if_pos hn, ← List.countP_eq_length_filter]
    apply List.countP_congr
    intro kind _
    simp [carries_ofProperties, hn]
  · rw [if_neg hn, List.countP_eq_zero]
    intro kind _
    simp [carries_ofProperties, hn]

theorem countP_valid (n : Nat) :
    (r.records id).countP (fun x => x.carries n && x.isValid) =
      if r.isValid then r.builds n else 0 := by
  have hsame : (r.records id).countP (fun x => x.carries n && x.isValid) =
      (r.records id).countP fun x => r.isValid && x.carries n := by
    apply List.countP_congr
    intro x hx
    obtain ⟨kind, -, rfl⟩ := List.mem_map.1 hx
    rw [isValid_ofProperties]
  rw [hsame]
  cases r.isValid with
  | false => simp
  | true => simpa using r.countP_carries id n

end Registration

namespace Mutation

theorem countP_carries (n : Nat) (s : Store) (m : Mutation) :
    (m.records s).countP (Record.carries n) = m.builds n := by
  cases m with
  | register r => exact r.countP_carries _ n
  | update id r => exact r.countP_carries id n
  | upsert r => simp [records, builds, List.countP_cons]
  | unregister id => rfl
  | remove k => rfl

theorem countP_valid (n : Nat) (s : Store) (m : Mutation) :
    (m.records s).countP (fun x => x.carries n && x.isValid) = m.buildsValid n := by
  cases m with
  | register r => exact r.countP_valid _ n
  | update id r => exact r.countP_valid id n
  | upsert r => simp [records, buildsValid, List.countP_cons]
  | unregister id => rfl
  | remove k => rfl

end Mutation

def Snapshot.onlyValid (s : Snapshot) : Snapshot :=
  { s with entries := s.entries.filter fun e => e.record.isValid }

namespace Mutation

def writes (s : Store) (m : Mutation) : List (Stored Record) :=
  (m.records s).map (Stored.mk (s.changeCount + 1))

theorem mem_mutate {s : Store} {m : Mutation} {e : Stored Record}
    (h : e ∈ (s.mutate m).1.snapshot.entries) : e ∈ s.snapshot.entries ∨ e ∈ m.writes s := by
  have hupsert : ∀ (t : Store) (rs : List Record), t.snapshot = s.snapshot →
      e ∈ (t.upsertAll rs).1.snapshot.entries →
        e ∈ s.snapshot.entries ∨ e ∈ rs.map (Stored.mk (s.changeCount + 1)) := by
    intro t rs ht he
    unfold Store.upsertAll at he
    rw [ht] at he
    split at he
    · exact Or.inl (ht ▸ he)
    · exact Snapshot.mem_insertAll he
  have herase : ∀ ks, e ∈ (s.eraseAll ks).1.snapshot.entries → e ∈ s.snapshot.entries := by
    intro ks he
    unfold Store.eraseAll at he
    split at he
    · exact Snapshot.mem_eraseAll (s := s.snapshot.advance) he
    · exact he
  cases m with
  | register r => exact hupsert { s with nextToken := (r.resolveId s.nextToken).2 } _ rfl h
  | upsert r => exact hupsert s [r] rfl h
  | update id r =>
    rcases Snapshot.mem_insertAll h with he | he
    · exact Or.inl (Snapshot.mem_eraseAll (s := s.snapshot.advance) he)
    · rw [Snapshot.eraseAll_changeCount] at he
      exact Or.inr he
  | unregister id => exact Or.inl (herase _ h)
  | remove k => exact Or.inl (herase _ h)

end Mutation

namespace Workbench

variable {σ : Type}

/-- Somebody asks a stored provider for its class, or for its contracts. -/
def examine (w : Workbench σ) (e : Stored Record) : Workbench σ :=
  match e.record with
  | .content c => { w with ledger := w.ledger.readClass e.tag c }
  | .application _ => w

theorem readStatuses_accounted {may : Nat → Key × Nat → Prop} {l : Ledger (Key × Nat)}
    (h : l.Accounted may) {s : Snapshot}
    (hmay : ∀ e ∈ s.entries, e.record.isValid = true →
      ∀ n, e.record.carries n = true → may n e.tag) : (readStatuses l s).Accounted may := by
  unfold readStatuses
  generalize s.entries = es at hmay
  induction es generalizing l with
  | nil => exact h
  | cons e es ih =>
    obtain ⟨he, hes⟩ := List.forall_mem_cons.1 hmay
    refine ih ?_ hes
    obtain ⟨revision, record⟩ := e
    cases record with
    | application a => exact h
    | content c =>
      refine h.readStatus fun hvalid source hsource => ?_
      exact he (Option.isNone_iff_eq_none.2 hvalid) _ (Record.carries_source hsource)

/-- Nobody looks at a provider with invalid properties to learn its status. -/
theorem readStatuses_onlyValid (l : Ledger (Key × Nat)) (s : Snapshot) :
    readStatuses l s = readStatuses l s.onlyValid := by
  unfold readStatuses Snapshot.onlyValid
  dsimp only
  generalize s.entries = es
  induction es generalizing l with
  | nil => rfl
  | cons e es ih =>
    by_cases he : e.record.isValid = true
    · simp only [List.filter_cons, he, if_true, List.foldl_cons]
      exact ih _
    · obtain ⟨revision, record⟩ := e
      rw [List.foldl_cons, ih]
      cases record with
      | application a => simp [he]
      | content c =>
        have hfault : c.profile.fault.isSome = true :=
          Option.ne_none_iff_isSome.1 fun hnone => he (Option.isNone_iff_eq_none.2 hnone)
        have hskip : ∀ i, l.readStatus i c = l := fun i => if_pos hfault
        simp [he, hskip]

theorem examine_accounted {may : Nat → Key × Nat → Prop} {w : Workbench σ}
    (h : w.ledger.Accounted may) {e : Stored Record}
    (hmay : ∀ n, e.record.carries n = true → may n e.tag) :
    (w.examine e).ledger.Accounted may := by
  obtain ⟨revision, record⟩ := e
  cases record with
  | application a => exact h
  | content c => exact h.readClass fun source hsource => hmay _ (Record.carries_source hsource)

theorem store_examine (w : Workbench σ) (e : Stored Record) : (w.examine e).store = w.store := by
  unfold examine
  split <;> rfl

end Workbench

structure Archive (σ : Type) where
  bench : Workbench σ
  kept : List Snapshot

namespace Archive

variable {σ : Type}

inductive Move where
  | mutate (m : Mutation)
  | replaceRuntime (p : Properties)
  /-- A pass over the current snapshot, with its deployments. -/
  | pass
  /-- A pass over any snapshot that there has been, without deployments. -/
  | resolve (number : Nat)
  /-- A look at what any snapshot has under a key. -/
  | examine (number : Nat) (k : Key)
  | teardown

def start (runtime : Properties) (container : σ) : Archive σ :=
  ⟨.start runtime container, [.empty]⟩

def entry? (a : Archive σ) (number : Nat) (k : Key) : Option (Stored Record) :=
  a.kept[number]?.bind fun s => s.get? k

def advance (respond : σ → Call → Response × σ) (a : Archive σ) : Move → Archive σ
  | .mutate m =>
    let bench := (a.bench.mutate m).1
    ⟨bench, a.kept ++ [bench.store.snapshot]⟩
  | .replaceRuntime p => { a with bench := a.bench.replaceRuntime p }
  | .pass => { a with bench := (a.bench.pass respond).2.2 }
  | .resolve number =>
    match a.kept[number]? with
    | some s => { a with bench := (a.bench.resolve s).2 }
    | none => a
  | .examine number k =>
    match a.entry? number k with
    | some e => { a with bench := a.bench.examine e }
    | none => a
  | .teardown => { a with bench := (a.bench.teardown respond).2 }

def after (respond : σ → Call → Response × σ) (a : Archive σ) (moves : List Move) : Archive σ :=
  moves.foldl (advance respond) a

namespace Move

def builds (n : Nat) : Move → Nat
  | mutate m => m.builds n
  | _ => 0

def buildsValid (n : Nat) : Move → Nat
  | mutate m => m.buildsValid n
  | _ => 0

def isExamination : Move → Bool
  | examine _ _ => true
  | _ => false

def writes (a : Archive σ) : Move → List (Stored Record)
  | mutate m => m.writes a.bench.store
  | _ => []

def examined (a : Archive σ) : Move → List (Key × Nat)
  | examine number k => ((a.entry? number k).map Stored.tag).toList
  | _ => []

end Move

def written (respond : σ → Call → Response × σ) (a : Archive σ) (moves : List Move) :
    List (Stored Record) :=
  history (advance respond) Move.writes a moves

def examined (respond : σ → Call → Response × σ) (a : Archive σ) (moves : List Move) :
    List (Key × Nat) :=
  history (advance respond) Move.examined a moves

/-- Which providers can have caused a lease on a source: one that was built from it, and that has
valid properties unless it was looked at by itself. -/
def Entitled (written : List (Stored Record)) (examined : List (Key × Nat)) (n : Nat)
    (i : Key × Nat) : Prop :=
  (∃ e ∈ written, e.record.carries n = true ∧ e.tag = i) ∧
    ((∃ e ∈ written, (e.record.carries n && e.record.isValid) = true ∧ e.tag = i) ∨ i ∈ examined)

theorem Entitled.mono {written written' : List (Stored Record)}
    {examined examined' : List (Key × Nat)} {n : Nat} {i : Key × Nat}
    (h : Entitled written examined n i) (hw : written ⊆ written') (he : examined ⊆ examined') : Entitled written' examined' n i := by
  obtain ⟨⟨e, hmem, hcarries⟩, hcause⟩ := h
  refine ⟨⟨e, hw hmem, hcarries⟩, hcause.imp ?_ (fun hi => he hi)⟩
  rintro ⟨e, hmem, hvalid⟩
  exact ⟨e, hw hmem, hvalid⟩

structure Orderly (written : List (Stored Record)) (examined : List (Key × Nat)) (a : Archive σ) :
    Prop where
  stored : ∀ e ∈ a.bench.store.snapshot.entries, e ∈ written
  kept : ∀ s ∈ a.kept, ∀ e ∈ s.entries, e ∈ written
  ledger : a.bench.ledger.Accounted (Entitled written examined)

namespace Orderly

variable {written : List (Stored Record)} {examined : List (Key × Nat)} {a : Archive σ}

theorem mono (h : a.Orderly written examined) {written' : List (Stored Record)}
    {examined' : List (Key × Nat)} (hw : written ⊆ written') (he : examined ⊆ examined') :
    a.Orderly written' examined' :=
  ⟨fun e hm => hw (h.stored e hm), fun s hs e hm => hw (h.kept s hs e hm),
    h.ledger.mono fun _ _ hi => hi.mono hw he⟩

/-- A pass over stored entries puts leases down to those with valid properties only. -/
theorem readStatuses (h : a.Orderly written examined) {s : Snapshot}
    (hs : ∀ e ∈ s.entries, e ∈ written) :
    (Workbench.readStatuses a.bench.ledger s).Accounted (Entitled written examined) := by
  apply Workbench.readStatuses_accounted h.ledger
  intro e he hvalid n hcarries
  have hboth : (e.record.carries n && e.record.isValid) = true := by rw [hcarries, hvalid]; rfl
  exact ⟨⟨e, hs e he, hcarries, rfl⟩, Or.inl ⟨e, hs e he, hboth, rfl⟩⟩

theorem advance (h : a.Orderly written examined) (respond : σ → Call → Response × σ) (m : Move) :
    (a.advance respond m).Orderly (written ++ m.writes a) (examined ++ m.examined a) := by
  have hold := h.mono (List.subset_append_left written (m.writes a))
    (List.subset_append_left examined (m.examined a))
  cases m with
  | mutate m =>
    have hstored : ∀ e ∈ (a.bench.store.mutate m).1.snapshot.entries,
        e ∈ written ++ m.writes a.bench.store := by
      intro e he
      rw [List.mem_append]
      exact (Mutation.mem_mutate he).imp_left (h.stored e)
    refine ⟨hstored, ?_, hold.ledger⟩
    intro s hs
    rcases List.mem_append.1 hs with hs | hs
    · exact hold.kept s hs
    · rw [List.mem_singleton.1 hs]
      exact hstored
  | replaceRuntime p => exact ⟨hold.stored, hold.kept, hold.ledger⟩
  | pass => exact ⟨hold.stored, hold.kept, hold.readStatuses hold.stored⟩
  | resolve number =>
    unfold Archive.advance
    dsimp only
    split
    · rename_i s hs
      exact ⟨hold.stored, hold.kept, hold.readStatuses (hold.kept s (List.mem_of_getElem? hs))⟩
    · exact hold
  | examine number k =>
    unfold Archive.advance
    dsimp only
    split
    · rename_i e he
      obtain ⟨s, hs, hfound⟩ := Option.bind_eq_some_iff.1 he
      have hwritten := hold.kept s (List.mem_of_getElem? hs) e (List.mem_of_find?_eq_some hfound)
      have hexamined : e.tag ∈ examined ++ Move.examined a (.examine number k) := by
        simp [Move.examined, he]
      refine ⟨?_, hold.kept, Workbench.examine_accounted hold.ledger fun n hcarries =>
        ⟨⟨e, hwritten, hcarries, rfl⟩, Or.inr hexamined⟩⟩
      rw [Workbench.store_examine]
      exact hold.stored
    · exact hold
  | teardown => exact ⟨hold.stored, hold.kept, hold.ledger⟩

end Orderly

section

variable (respond : σ → Call → Response × σ) (runtime : Properties) (container : σ)

theorem after_orderly (moves : List Move) :
    ((start runtime container).after respond moves).Orderly
      ((start runtime container).written respond moves)
      ((start runtime container).examined respond moves) := by
  induction moves using List.reverseRecOn with
  | nil =>
    refine ⟨List.forall_mem_nil _, ?_, Ledger.accounted_empty _⟩
    intro s hs
    rw [List.mem_singleton.1 hs]
    exact List.forall_mem_nil _
  | append_singleton moves m ih =>
    have hnext := ih.advance respond m
    rw [written, history_concat, examined, history_concat, after, List.foldl_append]
    exact hnext

end

theorem countP_written (respond : σ → Call → Response × σ) {P : Record → Bool}
    {count : Move → Nat}
    (h : ∀ (a : Archive σ) m, (m.writes a).countP (fun e => P e.record) = count m) (a : Archive σ)
    (moves : List Move) :
    (a.written respond moves).countP (fun e => P e.record) = (moves.map count).sum := by
  induction moves generalizing a with
  | nil => rfl
  | cons m moves ih =>
    rw [written, history, List.countP_append, h, List.map_cons, List.sum_cons]
    exact congrArg _ (ih _)

theorem Move.countP_writes (n : Nat) (a : Archive σ) (m : Move) :
    (m.writes a).countP (fun e => e.record.carries n) = m.builds n := by
  cases m with
  | mutate m =>
    rw [writes, Mutation.writes, List.countP_map]
    exact m.countP_carries n a.bench.store
  | _ => rfl

theorem Move.countP_writes_valid (n : Nat) (a : Archive σ) (m : Move) :
    (m.writes a).countP (fun e => e.record.carries n && e.record.isValid) = m.buildsValid n := by
  cases m with
  | mutate m =>
    rw [writes, Mutation.writes, List.countP_map]
    exact m.countP_valid n a.bench.store
  | _ => rfl

theorem length_examined_le (respond : σ → Call → Response × σ) (a : Archive σ)
    (moves : List Move) :
    (a.examined respond moves).length ≤ moves.countP Move.isExamination := by
  induction moves generalizing a with
  | nil => exact Nat.le_refl 0
  | cons m moves ih =>
    have hm : (m.examined a).length ≤ if m.isExamination then 1 else 0 := by
      cases m with
      | examine number k => exact Option.length_toList_le
      | _ => exact Nat.le_refl 0
    have hmoves := ih (advance respond a m)
    rw [examined, history, List.length_append, List.countP_cons]
    unfold examined at hmoves
    omega

theorem granted_le_builds (respond : σ → Call → Response × σ) (runtime : Properties)
    (container : σ) (moves : List Move) (n : Nat) :
    (((start runtime container).after respond moves).bench.ledger.tally n).granted ≤
      (moves.map (Move.builds n)).sum := by
  rw [← countP_written respond (Move.countP_writes n) (start runtime container),
    List.countP_eq_length_filter, ← List.length_map Stored.tag]
  apply (after_orderly respond runtime container moves).ledger.granted_le
  rintro i ⟨⟨e, he, hcarries, rfl⟩, -⟩
  exact List.mem_map_of_mem (List.mem_filter.2 ⟨he, hcarries⟩)

theorem granted_le_buildsValid (respond : σ → Call → Response × σ) (runtime : Properties)
    (container : σ) (moves : List Move) (n : Nat) :
    (((start runtime container).after respond moves).bench.ledger.tally n).granted ≤
      (moves.map (Move.buildsValid n)).sum + moves.countP Move.isExamination := by
  have hexamined := length_examined_le respond (start runtime container) moves
  have hvalid := @countP_written σ respond (fun r => r.carries n && r.isValid) (Move.buildsValid n)
    (Move.countP_writes_valid n) (start runtime container) moves
  have hbound : (((start runtime container).after respond moves).bench.ledger.tally n).granted ≤
      ((((start runtime container).written respond moves).filter fun e =>
        e.record.carries n && e.record.isValid).map Stored.tag ++
          (start runtime container).examined respond moves).length := by
    apply (after_orderly respond runtime container moves).ledger.granted_le
    rintro i ⟨-, ⟨e, he, hvalid, rfl⟩ | hi⟩
    · exact List.mem_append_left _ (List.mem_map_of_mem (List.mem_filter.2 ⟨he, hvalid⟩))
    · exact List.mem_append_right _ hi
  rw [List.length_append, List.length_map, ← List.countP_eq_length_filter, hvalid] at hbound
  omega

/-- After every step no lease is held, and a source has granted no more than one for each content
provider that was built from it. Providers whose properties are not valid have no part in it, unless
one is looked at by itself: a mutation takes no lease, and a pass takes those that it would take if
they were not stored. -/
theorem after_leases (respond : σ → Call → Response × σ) (runtime : Properties) (container : σ)
    (moves : List Move) :
    let now := (start runtime container).after respond moves
    (∀ n, (now.bench.ledger.tally n).held = 0 ∧
      (now.bench.ledger.tally n).granted ≤ (moves.map (Move.builds n)).sum ∧
      (now.bench.ledger.tally n).granted ≤
        (moves.map (Move.buildsValid n)).sum + moves.countP Move.isExamination) ∧
      (∀ m, (now.bench.mutate m).1.ledger = now.bench.ledger) ∧
      ∀ s, Workbench.readStatuses now.bench.ledger s =
        Workbench.readStatuses now.bench.ledger s.onlyValid := by
  intro now
  refine ⟨fun n => ⟨?_, granted_le_builds respond runtime container moves n,
    granted_le_buildsValid respond runtime container moves n⟩, fun m => rfl,
    Workbench.readStatuses_onlyValid now.bench.ledger⟩
  obtain ⟨owners, -, -, -, htally⟩ := (after_orderly respond runtime container moves).ledger n
  rw [htally]

example : ((start .empty MemoryContainer.empty).after MemoryContainer.respond
    [.mutate (.register ⟨.ofList [(Keys.resource, .flag true), (Keys.extension, .flag true),
      (Keys.objectClass, .text "Feature")], none, some ⟨0, some ⟨"log.Feature", []⟩⟩⟩), .pass,
      .mutate (.unregister (.generated 2)), .resolve 1, .examine 1 ⟨.resource, .generated 2⟩,
      .pass]).bench.ledger.tally 0 = ⟨2, 0⟩ := by
  decide +kernel

end Archive

end Reconciliation
