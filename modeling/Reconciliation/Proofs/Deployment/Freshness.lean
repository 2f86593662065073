import Reconciliation.Proofs.Deployment.Mirror
import Reconciliation.Proofs.Resolution.Fingerprint
import Reconciliation.Proofs.Store.Revision
import Reconciliation.Workbench

/-! # Nothing stale is deployed

As no two applications that were ever accepted share a fingerprint, what is deployed after a pass is
what the pass accepted.
-/
namespace Reconciliation

theorem Transcript.deployed?_append (log calls : Transcript) (p : String) :
    (log ++ calls).deployed? p =
      (calls.about p).foldl (fun before x => x.deployed before) (log.deployed? p) := by
  rw [deployed?, about_append, List.foldl_append, deployed?]

/-- What is live was last deployed with a canonical application that has the live fingerprint. -/
def Backs (es : Set (Stored Record)) (d : Option Accepted) (l : Option Live) : Prop :=
  ∀ x, l = some x → ∃ a, d = some a ∧ a.fingerprint = x.fingerprint ∧ a.Canonical es

namespace Backs

variable {es : Set (Stored Record)} {d : Option Accepted} {l : Option Live}

theorem none : Backs es d none := by
  intro x hx
  cases hx

theorem some {a : Accepted} {x : Live} (hf : a.fingerprint = x.fingerprint)
    (ha : a.Canonical es) : Backs es (some a) (some x) := by
  intro y hy
  obtain rfl := Option.some.inj hy
  exact ⟨a, rfl, hf, ha⟩

theorem mono {es' : Set (Stored Record)} (h : Backs es d l) (hs : es ⊆ es') : Backs es' d l := by
  intro x hx
  obtain ⟨a, hd, hf, ha⟩ := h x hx
  exact ⟨a, hd, hf, ha.mono hs⟩

end Backs

theorem Founding.backs {p : String} {app : Accepted} {xs : Transcript} {l' : Option Live}
    (h : Founding p app xs l') {es : Set (Stored Record)} (ha : app.Canonical es)
    (d : Option Accepted) : Backs es (xs.foldl (fun before x => x.deployed before) d) l' := by
  cases h with
  | stands number => exact .some rfl ha
  | fails why => exact .none

theorem Course.backs {p : String} {l l' : Option Live} {want : Option Accepted}
    {xs : Transcript} (h : Course p l want xs l') {es : Set (Stored Record)}
    (hwant : ∀ app, want = some app → app.Canonical es) {d : Option Accepted}
    (hd : Backs es d l) : Backs es (xs.foldl (fun before x => x.deployed before) d) l' := by
  cases h with
  | vacant => exact .none
  | retired number => exact .none
  | lingering why => exact hd
  | founded h => exact h.backs (hwant _ rfl) d
  | occupied hid why => exact hd
  | succeeded hid number h => exact h.backs (hwant _ rfl) _
  | unchanged hf => exact hd
  | reloaded hf number => exact .some rfl (hwant _ rfl)
  | stuck hf why why' => exact hd
  | replaced hf why number h => exact h.backs (hwant _ rfl) _

namespace Workbench

variable {σ : Type}

inductive Move where
  | mutate (m : Mutation)
  | replaceRuntime (p : Properties)
  | pass

def Move.mutation? : Move → Option Mutation
  | mutate m => some m
  | replaceRuntime _ | pass => none

def advance (respond : σ → Call → Response × σ) (w : Workbench σ) : Move → Workbench σ
  | .mutate m => (w.mutate m).1
  | .replaceRuntime p => w.replaceRuntime p
  | .pass => (w.pass respond).2.2

def after (respond : σ → Call → Response × σ) (w : Workbench σ) (moves : List Move) :
    Workbench σ :=
  moves.foldl (advance respond) w

def accepted (w : Workbench σ) : List Accepted :=
  (w.reconciler.run w.store.snapshot w.runtime.properties).applications

/-- All that the passes of a workbench have had before them after these moves: what was stored, and
the built-in default. -/
def lore (w : Workbench σ) (moves : List Move) : Set (Stored Record) :=
  {e | e ∈ w.store.annals (moves.filterMap Move.mutation?) ∨
    e = ⟨0, .application w.reconciler.builtin⟩}

theorem after_concat (respond : σ → Call → Response × σ) (w : Workbench σ) (moves : List Move)
    (m : Move) : w.after respond (moves ++ [m]) = advance respond (w.after respond moves) m := by
  simp [after]

theorem lore_mono {w : Workbench σ} {earlier moves : List Move} (h : earlier <+: moves) :
    w.lore earlier ⊆ w.lore moves := by
  rintro e (he | he)
  · exact Or.inl (Store.annals_mono (h.filterMap _) he)
  · exact Or.inr he

theorem reconciler_after (respond : σ → Call → Response × σ) (w : Workbench σ)
    (moves : List Move) : (w.after respond moves).reconciler = w.reconciler := by
  induction moves using List.reverseRecOn with
  | nil => rfl
  | append_singleton moves m ih =>
    rw [after_concat, ← ih]
    cases m <;> rfl

theorem store_after (respond : σ → Call → Response × σ) (w : Workbench σ) (moves : List Move) :
    (w.after respond moves).store = w.store.after (moves.filterMap Move.mutation?) := by
  induction moves using List.reverseRecOn with
  | nil => rfl
  | append_singleton moves m ih =>
    rw [after_concat, List.filterMap_append]
    cases m with
    | mutate m =>
      have hm : [Move.mutate m].filterMap Move.mutation? = [m] := rfl
      rw [hm, Store.after_concat, ← ih]
      rfl
    | replaceRuntime p =>
      have hm : [Move.replaceRuntime p].filterMap Move.mutation? = [] := rfl
      rw [hm, List.append_nil, ← ih]
      rfl
    | pass =>
      have hm : [Move.pass].filterMap Move.mutation? = [] := rfl
      rw [hm, List.append_nil, ← ih]
      rfl

/-- A pass makes its calls, and takes each path one of the ways that there are. -/
theorem advance_pass (respond : σ → Call → Response × σ) (w : Workbench (σ × Transcript)) :
    ∃ calls,
      (advance (Transcript.recording respond) w .pass).container.2 = w.container.2 ++ calls ∧
      ∀ p, Course p (w.live.get? p) ((Run.wanted w.accepted).get? p) (calls.about p)
        ((advance (Transcript.recording respond) w .pass).live.get? p) := by
  obtain ⟨run, s', calls, hd, he, hn⟩ :=
    Run.drive_recording respond (Run.towards w.live w.accepted) w.container.1 w.container.2
  have hpass : advance (Transcript.recording respond) w .pass =
      { (w.resolve w.store.snapshot).2 with
        live := run.finalLive
        container := (s', w.container.2 ++ calls)
        passes := w.passes + 1 } := by
    rw [accepted] at hd
    simp only [advance, pass, resolve, hd]
  refine ⟨calls, ?_, ?_⟩
  · rw [hpass]
  · intro p
    rw [hpass, Run.finalLive_of_towards he]
    exact he.course hn p

section

variable (respond : σ → Call → Response × σ) (s : σ) (runtime : Properties)

def reached (moves : List Move) : Workbench (σ × Transcript) :=
  (start runtime (s, [])).after (Transcript.recording respond) moves

def reachedLore (moves : List Move) : Set (Stored Record) :=
  (start runtime (s, ([] : Transcript))).lore moves

/-- The built-in default has revision zero, and nothing that was ever stored has. -/
theorem lore_stamps_unique (moves : List Move) :
    StampsAreUnique (reachedLore s runtime moves) := by
  have h := Store.chronicle_after 2 (moves.filterMap Move.mutation?)
  rintro e (he | rfl) e' (he' | rfl) hk hr
  · exact h.unique e he e' he' hk hr
  · have := (h.dated e he).1
    simp only at hr
    omega
  · have := (h.dated e' he').1
    simp only at hr
    omega
  · rfl

theorem accepted_canonical (moves : List Move) {a : Accepted}
    (ha : a ∈ (reached respond s runtime moves).accepted) :
    a.Canonical (reachedLore s runtime moves) := by
  have hstore := store_after (Transcript.recording respond) (start runtime (s, [])) moves
  have h := Store.chronicle_after 2 (moves.filterMap Move.mutation?)
  have hkeyed : (reached respond s runtime moves).store.snapshot.Keyed := by
    rw [reached, hstore]
    exact h.keyed
  refine (Reconciler.accepted_canonical hkeyed ha).mono ?_
  intro e he
  rcases List.mem_append.1 he with he | he
  · rw [reached, hstore] at he
    exact Or.inl (h.recorded e he)
  · obtain rfl := List.mem_singleton.1 he
    rw [reached, reconciler_after]
    exact Or.inr rfl

theorem wanted_canonical (moves : List Move) {p : String} {a : Accepted}
    (h : (Run.wanted (reached respond s runtime moves).accepted).get? p = some a) :
    a.Canonical (reachedLore s runtime moves) := by
  obtain ⟨b, hb, he⟩ := List.mem_map.1 (Dictionary.mem_of_get?_ofList h)
  obtain rfl : b = a := congrArg Prod.snd he
  exact accepted_canonical respond s runtime moves hb

theorem pass_backs (moves : List Move) {p : String}
    (h : Backs (reachedLore s runtime moves)
      ((reached respond s runtime moves).container.2.deployed? p)
      ((reached respond s runtime moves).live.get? p)) :
    let next := advance (Transcript.recording respond) (reached respond s runtime moves) .pass
    Backs (reachedLore s runtime moves) (next.container.2.deployed? p) (next.live.get? p) := by
  intro next
  obtain ⟨calls, hlog, hcourse⟩ := advance_pass respond (reached respond s runtime moves)
  rw [hlog, Transcript.deployed?_append]
  exact (hcourse p).backs (fun app => wanted_canonical respond s runtime moves) h

/-- At all times the live entries tell what their paths were last deployed with. -/
theorem reached_backs (moves : List Move) (p : String) :
    Backs (reachedLore s runtime moves) ((reached respond s runtime moves).container.2.deployed? p)
      ((reached respond s runtime moves).live.get? p) := by
  induction moves using List.reverseRecOn with
  | nil => exact .none
  | append_singleton moves m ih =>
    have hlore : reachedLore s runtime moves ⊆ reachedLore s runtime (moves ++ [m]) :=
      lore_mono (List.prefix_append moves [m])
    refine Backs.mono ?_ hlore
    rw [reached, after_concat]
    cases m with
    | mutate m => exact ih
    | replaceRuntime p => exact ih
    | pass => exact pass_backs respond s runtime moves ih

/-- After a pass, each accepted application whose path had no failed call is what its path was last
deployed with, down to the order of its content. No two applications that were accepted at any times
share a fingerprint. -/
theorem pass_leaves_nothing_stale (moves : List Move) :
    let now := (start runtime (s, [])).after (Transcript.recording respond) moves
    let next := advance (Transcript.recording respond) now .pass
    (∃ calls, next.container.2 = now.container.2 ++ calls ∧
      ∀ a ∈ now.accepted, (∀ x ∈ calls, x.path = a.base → x.succeeds = true) →
        next.container.2.deployed? a.base = some a) ∧
    ∀ earlier, earlier <+: moves →
      ∀ b ∈ ((start runtime (s, [])).after (Transcript.recording respond) earlier).accepted,
        ∀ a ∈ now.accepted, a.fingerprint = b.fingerprint → a = b := by
  intro now next
  have hunique := lore_stamps_unique s runtime moves
  constructor
  · obtain ⟨calls, hlog, hcourse⟩ := advance_pass respond now
    refine ⟨calls, hlog, ?_⟩
    intro a ha hok
    have hwant : (Run.wanted now.accepted).get? a.base = some a := by
      apply Dictionary.get?_ofList
      · rw [List.map_map]
        exact Reconciler.accepted_bases_nodup _ _ _
      · exact List.mem_map_of_mem ha
    have hbacks := pass_backs respond s runtime moves (reached_backs respond s runtime moves a.base)
    have hlive := hcourse a.base
    rw [hwant] at hlive
    obtain ⟨x, hx, hf⟩ := hlive.live_of_succeeds fun y hy =>
      hok y (List.mem_filter.1 hy).1 (beq_iff_eq.1 (List.mem_filter.1 hy).2)
    -- What is live has the fingerprint of `a`, and so has what the path was last deployed with.
    obtain ⟨b, hb, hbf, hcanonical⟩ := hbacks x hx
    have hba : b = a := hcanonical.eq_of_fingerprint hunique
      (accepted_canonical respond s runtime moves ha) (hbf.trans hf)
    exact hb.trans (congrArg some hba)
  · intro earlier he b hb a ha hf
    have hb' := (accepted_canonical respond s runtime earlier hb).mono (lore_mono he)
    exact (accepted_canonical respond s runtime moves ha).eq_of_fingerprint hunique hb' hf

end

end Workbench

end Reconciliation
