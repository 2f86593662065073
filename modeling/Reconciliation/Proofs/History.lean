/-! # Histories

Something that takes one event after the other has a history: what became known with each of them,
in that order. What every event that may come keeps is kept by all that come.
-/
namespace Reconciliation

theorem filterMap_toList {β γ : Type} (f : β → Option γ) (o : Option β) :
    o.toList.filterMap f = (o.bind f).toList := by
  cases o with
  | none => rfl
  | some b => cases h : f b <;> simp [h]

section

variable {σ ε β : Type} (next : σ → ε → σ) (told : σ → ε → List β)

/-- What becomes known as events come in, from a state on. -/
def history (s : σ) : List ε → List β
  | [] => []
  | e :: events => told s e ++ history (next s e) events

theorem history_append (s : σ) (events later : List ε) :
    history next told s (events ++ later) =
      history next told s events ++ history next told (events.foldl next s) later := by
  induction events generalizing s with
  | nil => rfl
  | cons e events ih =>
    rw [List.cons_append, history, history, ih, List.append_assoc, List.foldl_cons]

theorem history_concat (s : σ) (events : List ε) (e : ε) :
    history next told s (events ++ [e]) =
      history next told s events ++ told (events.foldl next s) e := by
  rw [history_append, history, history, List.append_nil]

end

section

variable {σ ε : Type} (next : σ → ε → σ) (may : σ → ε → Prop)

/-- Each event comes where it may. -/
def Follows (s : σ) : List ε → Prop
  | [] => True
  | e :: events => may s e ∧ Follows (next s e) events

variable {next may}

theorem follows_append {s : σ} {events later : List ε} : Follows next may s (events ++ later) ↔
    Follows next may s events ∧ Follows next may (events.foldl next s) later := by
  induction events generalizing s with
  | nil => simp [Follows]
  | cons e events ih =>
    rw [List.cons_append, Follows, Follows, ih, and_assoc]
    rfl

theorem follows_concat {s : σ} {events : List ε} {e : ε} : Follows next may s (events ++ [e]) ↔
    Follows next may s events ∧ may (events.foldl next s) e := by
  rw [follows_append, Follows, Follows, and_true]

theorem Follows.keeps {s : σ} {events : List ε} (h : Follows next may s events) {P : σ → Prop}
    (hs : P s) (hnext : ∀ s e, P s → may s e → P (next s e)) : P (events.foldl next s) := by
  induction events generalizing s with
  | nil => exact hs
  | cons e events ih =>
    obtain ⟨he, hevents⟩ := h
    exact ih hevents (hnext s e hs he)

instance decidableFollows [∀ s e, Decidable (may s e)] (s : σ) :
    (events : List ε) → Decidable (Follows next may s events)
  | [] => isTrue trivial
  | e :: events =>
    have := decidableFollows (next s e) events
    inferInstanceAs (Decidable (may s e ∧ Follows next may (next s e) events))

end

section

variable {ε : Type} (clock? : ε → Option Nat) (events : List (Nat × ε))

/-- Events come one after the other, each at the moment that is noted beside it. -/
structure Chronological : Prop where
  order : events.Pairwise fun x y => x.1 ≤ y.1
  /-- Whatever reads the clock reads that moment. -/
  clock : ∀ x ∈ events, ∀ now ∈ clock? x.2, now = x.1

instance : Decidable (Chronological clock? events) :=
  decidable_of_iff (events.Pairwise (fun x y => x.1 ≤ y.1) ∧
      ∀ x ∈ events, ∀ now ∈ clock? x.2, now = x.1)
    ⟨fun ⟨order, clock⟩ => ⟨order, clock⟩, fun ⟨order, clock⟩ => ⟨order, clock⟩⟩

variable {clock? events}

theorem chronological_concat {x : Nat × ε} : Chronological clock? (events ++ [x]) ↔
    Chronological clock? events ∧ (∀ y ∈ events, y.1 ≤ x.1) ∧ ∀ now ∈ clock? x.2, now = x.1 := by
  constructor
  · intro h
    obtain ⟨horder, -, hlast⟩ := List.pairwise_append.1 h.order
    refine ⟨⟨horder, fun y hy => h.clock y (List.mem_append_left _ hy)⟩, ?_, ?_⟩
    · exact fun y hy => hlast y hy x List.mem_cons_self
    · exact h.clock x (List.mem_append_right _ List.mem_cons_self)
  · rintro ⟨h, hlast, hclock⟩
    constructor
    · refine List.pairwise_append.2 ⟨h.order, List.pairwise_singleton _ x, ?_⟩
      intro y hy z hz
      rw [List.mem_singleton.1 hz]
      exact hlast y hy
    · intro y hy
      rcases List.mem_append.1 hy with hy | hy
      · exact h.clock y hy
      · rw [List.mem_singleton.1 hy]
        exact hclock

end

section

variable {β : Type} (fits : List β → β → Prop) (log : List β)

def Founded : Prop :=
  ∀ past x later, log = past ++ x :: later → fits past x

variable {fits log}

theorem Founded.concat (h : Founded fits log) {x : β} (hx : fits log x) :
    Founded fits (log ++ [x]) := by
  intro past y later hsplit
  rcases List.eq_nil_or_concat later with rfl | ⟨later, z, rfl⟩
  · obtain ⟨rfl, hlast⟩ := List.append_inj' hsplit rfl
    rwa [← List.head_eq_of_cons_eq hlast]
  · rw [List.concat_eq_append, ← List.cons_append, ← List.append_assoc] at hsplit
    exact h past y later (List.append_inj' hsplit rfl).1

end

end Reconciliation
