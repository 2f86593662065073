/-! # Dictionaries

Maps from texts to values, kept in increasing order of the keys with each key once. Because the
order is part of the type, two dictionaries with the same entries are equal.
-/
namespace Reconciliation

variable {α : Type}

/-- Puts `v` under `k` in a list of entries that is sorted by key. -/
def insertEntry (k : String) (v : α) : List (String × α) → List (String × α)
  | [] => [(k, v)]
  | e :: es =>
    if k < e.1 then (k, v) :: e :: es
    else if k = e.1 then (k, v) :: es
    else e :: insertEntry k v es

theorem mem_insertEntry {k : String} {v : α} {p : String × α} {es : List (String × α)}
    (h : p ∈ insertEntry k v es) : p = (k, v) ∨ p ∈ es := by
  induction es with
  | nil => simpa [insertEntry] using h
  | cons e es ih =>
    rw [insertEntry] at h
    split at h
    · simpa using h
    · split at h <;> simp only [List.mem_cons] at h ⊢ <;> grind

theorem pairwise_insertEntry (k : String) (v : α) {es : List (String × α)}
    (h : es.Pairwise fun a b => a.1 < b.1) : (insertEntry k v es).Pairwise fun a b => a.1 < b.1 := by
  induction es with
  | nil => simp [insertEntry]
  | cons e es ih =>
    obtain ⟨he, hes⟩ := List.pairwise_cons.1 h
    rw [insertEntry]
    split
    · rename_i hk
      exact List.pairwise_cons.2 ⟨fun p hp => by
        rcases List.mem_cons.1 hp with rfl | hp
        · exact hk
        · exact String.lt_trans hk (he p hp), h⟩
    · split
      · rename_i hk
        exact List.pairwise_cons.2 ⟨fun p hp => hk ▸ he p hp, hes⟩
      · rename_i hlt hne
        refine List.pairwise_cons.2 ⟨fun p hp => ?_, ih hes⟩
        rcases mem_insertEntry hp with rfl | hp
        · grind
        · exact he p hp

structure Dictionary (α : Type) where
  entries : List (String × α)
  sorted : entries.Pairwise fun a b => a.1 < b.1
  deriving DecidableEq, Repr

namespace Dictionary

def empty : Dictionary α := ⟨[], List.Pairwise.nil⟩

instance : Inhabited (Dictionary α) := ⟨empty⟩

def insert (d : Dictionary α) (k : String) (v : α) : Dictionary α :=
  ⟨insertEntry k v d.entries, pairwise_insertEntry k v d.sorted⟩

def erase (d : Dictionary α) (k : String) : Dictionary α :=
  ⟨d.entries.filter fun e => e.1 != k, d.sorted.filter _⟩

/-- Of several values for one key the last one counts. -/
def ofList (pairs : List (String × α)) : Dictionary α :=
  pairs.foldl (fun d e => d.insert e.1 e.2) empty

def get? (d : Dictionary α) (k : String) : Option α :=
  (d.entries.find? fun e => e.1 == k).map (·.2)

def keys (d : Dictionary α) : List String :=
  d.entries.map (·.1)

def size (d : Dictionary α) : Nat :=
  d.entries.length

end Dictionary

end Reconciliation
