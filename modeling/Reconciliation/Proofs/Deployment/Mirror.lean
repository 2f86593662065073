import Mathlib.Data.List.Induction
import Reconciliation.Proofs.Deployment.Course

/-! # The live map mirrors the container

A deployment stands at a path from its successful creation to its successful destruction. Whatever
the container answers, the live map says what stands.
-/
namespace Reconciliation

def Call.Fits (c : Call) (standing : Option Nat) : Prop :=
  match c with
  | .create _ _ => standing = none
  | .reload _ handle _ | .destroy _ handle => standing = some handle

/-- Exchanges about one path each of which makes sense when its turn comes. -/
inductive Transcript.Sound : Option Nat → Transcript → Option Nat → Prop where
  | nil (standing : Option Nat) : Sound standing [] standing
  | cons {before after : Option Nat} {x : Exchange} {log : Transcript} (h : x.call.Fits before)
      (hrest : Sound (x.standing before) log after) : Sound before (x :: log) after

namespace Transcript.Sound

theorem append {a b c : Option Nat} {log log' : Transcript} (h : Sound a log b)
    (h' : Sound b log' c) : Sound a (log ++ log') c := by
  induction h with
  | nil => exact h'
  | cons hx _ ih => exact .cons hx (ih h')

theorem foldl_eq {a b : Option Nat} {log : Transcript} (h : Sound a log b) :
    log.foldl (fun before x => x.standing before) a = b := by
  induction h with
  | nil => rfl
  | cons _ _ ih => exact ih

theorem fits {a c : Option Nat} {before after : Transcript} {x : Exchange}
    (h : Sound a (before ++ x :: after) c) :
    x.call.Fits (before.foldl (fun standing y => y.standing standing) a) := by
  induction before generalizing a with
  | nil =>
    cases h with
    | cons hx _ => exact hx
  | cons y before ih =>
    cases h with
    | cons _ hrest => exact ih hrest

end Transcript.Sound

theorem Founding.sound {p : String} {app : Accepted} {xs : Transcript} {l' : Option Live}
    (h : Founding p app xs l') : Transcript.Sound none xs (l'.map Live.handle) := by
  cases h with
  | stands number => exact .cons rfl (.nil _)
  | fails why => exact .cons rfl (.nil _)

theorem Course.sound {p : String} {l l' : Option Live} {want : Option Accepted} {xs : Transcript}
    (h : Course p l want xs l') :
    Transcript.Sound (l.map Live.handle) xs (l'.map Live.handle) := by
  cases h with
  | vacant => exact .nil _
  | retired number => exact .cons rfl (.nil _)
  | lingering why => exact .cons rfl (.nil _)
  | founded h => exact h.sound
  | occupied hid why => exact .cons rfl (.nil _)
  | succeeded hid number h => exact .cons rfl h.sound
  | unchanged hf => exact .nil _
  | reloaded hf number => exact .cons rfl (.nil _)
  | stuck hf why why' => exact .cons rfl (.cons rfl (.nil _))
  | replaced hf why number h => exact .cons rfl (.cons rfl h.sound)

def Run.courses : List (List Operation) :=
  [[], [.create], [.reload], [.destroy], [.destroy, .create], [.reload, .destroy],
    [.reload, .destroy, .create]]

theorem Founding.operations {p : String} {app : Accepted} {xs : Transcript} {l' : Option Live}
    (h : Founding p app xs l') : xs.operations = [.create] := by
  cases h with
  | stands number => rfl
  | fails why => rfl

theorem Course.operations_mem {p : String} {l l' : Option Live} {want : Option Accepted}
    {xs : Transcript} (h : Course p l want xs l') : xs.operations ∈ Run.courses := by
  have hcons : ∀ x (ys : Transcript),
      Transcript.operations (x :: ys) = x.call.operation :: ys.operations := fun _ _ => rfl
  cases h with
  | founded h => simp [h.operations, Run.courses]
  | succeeded hid number h => simp [hcons, h.operations, Call.operation, Run.courses]
  | replaced hf why number h => simp [hcons, h.operations, Call.operation, Run.courses]
  | _ => simp [Transcript.operations, Call.operation, Run.courses]

/-- The live map says what stands, and no call was ever made that did not make sense. -/
structure LiveMap.Mirrors (live : LiveMap) (log : Transcript) : Prop where
  fits : ∀ (before : Transcript) (x : Exchange) (after : Transcript),
    log = before ++ x :: after → x.call.Fits (before.standing? x.path)
  standing : ∀ p, (live.get? p).map Live.handle = log.standing? p

theorem LiveMap.mirrors_of_sound {live : LiveMap} {log : Transcript}
    (h : ∀ p, Transcript.Sound none (log.about p) ((live.get? p).map Live.handle)) :
    live.Mirrors log := by
  constructor
  · rintro before x after rfl
    have hx := h x.path
    rw [Transcript.about_append, Transcript.about_cons, if_pos rfl] at hx
    exact hx.fits
  · intro p
    exact (h p).foldl_eq.symm

def LiveMap.applyAll {σ : Type} (respond : σ → Call → Response × σ) (start : LiveMap × σ)
    (lists : List (List Accepted)) : LiveMap × σ :=
  lists.foldl (fun now apps =>
    let (run, s) := (Run.towards now.1 apps).drive respond now.2
    (run.finalLive, s)) start

theorem LiveMap.applyAll_concat {σ : Type} (respond : σ → Call → Response × σ)
    (start : LiveMap × σ) (lists : List (List Accepted)) (apps : List Accepted) :
    applyAll respond start (lists ++ [apps]) =
      (((Run.towards (applyAll respond start lists).1 apps).drive respond
          (applyAll respond start lists).2).1.finalLive,
        ((Run.towards (applyAll respond start lists).1 apps).drive respond
          (applyAll respond start lists).2).2) := by
  simp only [applyAll, List.foldl_append, List.foldl_cons, List.foldl_nil]

theorem Run.finalLive_of_towards {live : LiveMap} {apps : List Accepted} {calls : Transcript}
    {r' : Run} (h : (towards live apps).Exchanges calls r') : r'.finalLive = r'.live := by
  have hf : r'.forgets = false := h.forgets_eq
  simp [finalLive, hf]

/-- A run takes what stands at each path on to what stands there in the end. -/
theorem LiveMap.applyAll_sound {σ : Type} (respond : σ → Call → Response × σ) (s : σ)
    (lists : List (List Accepted)) (p : String) :
    let reached := applyAll (Transcript.recording respond) (.empty, s, []) lists
    Transcript.Sound none (reached.2.2.about p) ((reached.1.get? p).map Live.handle) := by
  induction lists using List.reverseRecOn with
  | nil => exact .nil none
  | append_singleton lists apps ih =>
    generalize hreached : applyAll (Transcript.recording respond) (.empty, s, []) lists = reached
      at ih
    obtain ⟨live, s', log⟩ := reached
    obtain ⟨r', s'', calls, hd, he, hn⟩ :=
      Run.drive_recording respond (Run.towards live apps) s' log
    simp only [applyAll_concat, hreached, hd, Run.finalLive_of_towards he,
      Transcript.about_append]
    exact ih.append (he.course hn p).sound

/-- Started from nothing, runs towards any lists of applications keep the live map in line with the
container, whatever it answers: they create only where nothing stands, reload and destroy only what
stands, and what is live is what stands. A further run comes to its end, and at each path it takes
one of seven courses. -/
theorem LiveMap.applyAll_mirrors_container {σ : Type} (respond : σ → Call → Response × σ) (s : σ)
    (lists : List (List Accepted)) :
    let reached := applyAll (Transcript.recording respond) (.empty, s, []) lists
    reached.1.Mirrors reached.2.2 ∧
    (∀ p, p ∈ reached.1.keys ↔ (reached.2.2.standing? p).isSome = true) ∧
    ∀ apps, ∃ run s' calls,
      (Run.towards reached.1 apps).drive (Transcript.recording respond) reached.2 =
        (run, s', reached.2.2 ++ calls) ∧
      run.call? = none ∧ ∀ p, (calls.about p).operations ∈ Run.courses := by
  intro reached
  have hm : reached.1.Mirrors reached.2.2 := mirrors_of_sound (applyAll_sound respond s lists)
  refine ⟨hm, ?_, ?_⟩
  · intro p
    rw [Dictionary.mem_keys_iff, ← hm.standing p, Option.isSome_map]
  · intro apps
    obtain ⟨run, s', calls, hd, he, hn⟩ :=
      Run.drive_recording respond (Run.towards reached.1 apps) reached.2.1 reached.2.2
    exact ⟨run, s', calls, hd, hn, fun p => (he.course hn p).operations_mem⟩

end Reconciliation
