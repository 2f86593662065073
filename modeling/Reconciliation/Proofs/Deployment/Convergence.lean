import Reconciliation.Deployment.Memory
import Reconciliation.Proofs.Deployment.Mirror

/-! # Runs converge

A run without a failed call closes every gap there is, from any live map at all; a further run
towards the same paths and fingerprints is over before it makes a call.
-/
namespace Reconciliation

def Accepted.target (a : Accepted) : String × Fingerprint :=
  (a.base, a.fingerprint)

structure LiveMap.InLineWith (live : LiveMap) (apps : List Accepted) : Prop where
  paths : ∀ p, p ∈ live.keys ↔ p ∈ apps.map Accepted.base
  entries : ∀ a ∈ apps, ∃ x, live.get? a.base = some x ∧ x.fingerprint = a.fingerprint ∧
    x.fingerprint.application = a.id

namespace Run

variable {live : LiveMap} {apps : List Accepted}

theorem wanted_eq_some_iff (hn : (apps.map Accepted.base).Nodup) {p : String} {a : Accepted} :
    (wanted apps).get? p = some a ↔ a ∈ apps ∧ a.base = p := by
  constructor
  · intro h
    obtain ⟨b, hb, he⟩ := List.mem_map.1 (Dictionary.mem_of_get?_ofList h)
    obtain ⟨rfl, rfl⟩ := Prod.mk.inj he
    exact ⟨hb, rfl⟩
  · rintro ⟨ha, rfl⟩
    apply Dictionary.get?_ofList
    · rwa [List.map_map]
    · exact List.mem_map_of_mem ha

theorem wanted_eq_none_iff (hn : (apps.map Accepted.base).Nodup) {p : String} :
    (wanted apps).get? p = none ↔ p ∉ apps.map Accepted.base := by
  simp only [Option.eq_none_iff_forall_ne_some, ne_eq, wanted_eq_some_iff hn, List.mem_map,
    not_exists]

end Run

theorem Run.Exchanges.inLineWith {live : LiveMap} {apps : List Accepted} {calls : Transcript}
    {r' : Run} (h : (towards live apps).Exchanges calls r') (hend : r'.call? = none)
    (hn : (apps.map Accepted.base).Nodup) (hok : ∀ x ∈ calls, x.succeeds = true) :
    r'.live.InLineWith apps := by
  have hokAt : ∀ p, ∀ x ∈ calls.about p, x.succeeds = true :=
    fun p x hx => hok x (List.mem_filter.1 hx).1
  have hentry : ∀ a ∈ apps, ∃ x, r'.live.get? a.base = some x ∧ x.fingerprint = a.fingerprint := by
    intro a ha
    have hcourse := h.course hend a.base
    rw [(wanted_eq_some_iff hn).2 ⟨ha, rfl⟩] at hcourse
    exact hcourse.live_of_succeeds (hokAt a.base)
  constructor
  · intro p
    rw [Dictionary.mem_keys_iff]
    constructor
    · intro hlive
      by_contra hp
      have hcourse := h.course hend p
      rw [(wanted_eq_none_iff hn).2 hp] at hcourse
      simp [hcourse.vacant_of_succeeds (hokAt p)] at hlive
    · intro hp
      obtain ⟨a, ha, rfl⟩ := List.mem_map.1 hp
      obtain ⟨x, hx, -⟩ := hentry a ha
      simp [hx]
  · intro a ha
    obtain ⟨x, hx, hf⟩ := hentry a ha
    exact ⟨x, hx, hf, hf ▸ rfl⟩

namespace LiveMap.InLineWith

variable {live : LiveMap} {apps apps' : List Accepted}

theorem of_targets (h : live.InLineWith apps)
    (ht : (apps'.map Accepted.target).Perm (apps.map Accepted.target)) :
    live.InLineWith apps' := by
  constructor
  · intro p
    have hp := (ht.map Prod.fst).mem_iff (a := p)
    rw [List.map_map, List.map_map] at hp
    exact (h.paths p).trans hp.symm
  · intro a' ha'
    obtain ⟨a, ha, he⟩ := List.mem_map.1 (ht.mem_iff.1 (List.mem_map_of_mem ha'))
    obtain ⟨hb, hf⟩ := Prod.mk.inj he
    obtain ⟨x, hx, hxf, -⟩ := h.entries a ha
    exact ⟨x, hb ▸ hx, hxf.trans hf, (hxf.trans hf) ▸ rfl⟩

theorem call?_eq_none (h : live.InLineWith apps) (hn : (apps.map Accepted.base).Nodup) :
    (Run.towards live apps).call? = none := by
  apply Run.call?_eq_none
  intro t ht
  have htask : t ∈ (Run.towards live apps).tasksAt t.path := List.mem_filter.2 ⟨ht, by simp⟩
  rw [Run.tasksAt_towards] at htask
  rw [Task.call?_eq]
  cases hw : (Run.wanted apps).get? t.path with
  | none =>
    have hl : live.get? t.path = none := by
      have hp := (Run.wanted_eq_none_iff hn).1 hw
      rw [← h.paths, Dictionary.mem_keys_iff] at hp
      simpa using hp
    simp [hw, hl, Run.plan, Run.isStale] at htask
  | some a =>
    obtain ⟨ha, hb⟩ := (Run.wanted_eq_some_iff hn).1 hw
    obtain ⟨x, hx, hf, hid⟩ := h.entries a ha
    rw [hb] at hx
    simp only [hw, hx, Run.plan, Run.isStale, hid, bne_self_eq_false, Bool.false_eq_true, if_false,
      List.nil_append, Option.map_some, Option.toList_some, List.mem_singleton] at htask
    change t.callAt (live.get? t.path) = none
    rw [hx, htask]
    simp [Task.callAt, hf]

end LiveMap.InLineWith

/-- From whatever is live, no run makes a call at a path that has what is accepted there, and a run
without a failed call brings the live map in line with what is accepted. Then a run towards the same
paths and fingerprints ends as it began, without a call. The live map may be any at all, so those
that runs and teardowns with failed calls leave behind are among them. -/
theorem Run.towards_converges {σ : Type} (respond : σ → Call → Response × σ) (s : σ)
    (log : Transcript) (live : LiveMap) (apps : List Accepted)
    (hn : (apps.map Accepted.base).Nodup) :
    ∃ run s' calls,
      (towards live apps).drive (Transcript.recording respond) (s, log) = (run, s', log ++ calls) ∧
      run.call? = none ∧
      (∀ a ∈ apps, ∀ x, live.get? a.base = some x → x.fingerprint = a.fingerprint →
        calls.about a.base = [] ∧ run.finalLive.get? a.base = some x) ∧
      ((∀ x ∈ calls, x.succeeds = true) → run.finalLive.InLineWith apps ∧
        ∀ apps', (apps'.map Accepted.target).Perm (apps.map Accepted.target) →
          let again := towards run.finalLive apps'
          again.call? = none ∧ again.report.isNoop = true ∧ again.finalLive = run.finalLive ∧
            ∀ {τ : Type} (respond' : τ → Call → Response × τ) (t : τ),
              again.drive respond' t = (again, t)) := by
  obtain ⟨run, s', calls, hd, he, hend⟩ := drive_recording respond (towards live apps) s log
  refine ⟨run, s', calls, hd, hend, ?_, ?_⟩
  · intro a ha x hx hf
    have hcourse := he.course hend a.base
    rw [hx, (wanted_eq_some_iff hn).2 ⟨ha, rfl⟩] at hcourse
    rw [finalLive_of_towards he]
    exact hcourse.eq_unchanged hf
  · intro hok
    have hline : run.finalLive.InLineWith apps := by
      rw [finalLive_of_towards he]
      exact he.inLineWith hend hn hok
    refine ⟨hline, ?_⟩
    intro apps' ht again
    have hn' : (apps'.map Accepted.base).Nodup := by
      have hp := ht.map Prod.fst
      rw [List.map_map, List.map_map] at hp
      exact hp.nodup_iff.2 hn
    have hcall : again.call? = none := (hline.of_targets ht).call?_eq_none hn'
    refine ⟨hcall, rfl, rfl, ?_⟩
    intro τ respond' t
    exact drive_of_call?_eq_none respond' t hcall

namespace Shop

def frontPage : Accepted := ⟨⟨1, .builtin (.generated 0)⟩, [], []⟩

def shopPage : Accepted :=
  ⟨⟨2, .ofProperties (.registered 1)
    (.ofList [(Keys.name, .text "shop"), (Keys.applicationBase, .text "/shop")])⟩, [], []⟩

def leftover : LiveMap :=
  .ofList [("/", ⟨4, frontPage.fingerprint⟩), ("/old", ⟨5, ⟨.registered 9, 1, []⟩⟩)]

/-- The path that nobody accepts is cleared and the shop is created, while no call is made about the
front page. Then nothing is left to do, in whatever order the two are listed. -/
theorem leftover_is_cleared : ∃ run s' calls,
    (Run.towards leftover [frontPage, shopPage]).drive
      (Transcript.recording MemoryContainer.respond) (.empty, []) = (run, s', calls) ∧
    calls.map (fun x => (x.call.operation, x.path)) = [(.destroy, "/old"), (.create, "/shop")] ∧
    calls.about "/" = [] ∧ run.finalLive.InLineWith [frontPage, shopPage] ∧
    (Run.towards run.finalLive [shopPage, frontPage]).call? = none := by
  obtain ⟨run, s', calls, hd, -, hkept, hhealthy⟩ := Run.towards_converges MemoryContainer.respond
    .empty [] leftover [frontPage, shopPage] (by decide +kernel)
  have hcalls : calls = ((Run.towards leftover [frontPage, shopPage]).drive
      (Transcript.recording MemoryContainer.respond) (.empty, [])).2.2 := by
    rw [hd, List.nil_append]
  have hok : ∀ x ∈ calls, x.succeeds = true := by
    rw [hcalls]
    decide +kernel
  obtain ⟨hline, hagain⟩ := hhealthy hok
  refine ⟨run, s', calls, hd, ?_, ?_, hline, ?_⟩
  · rw [hcalls]
    decide +kernel
  · exact (hkept frontPage (by simp) ⟨4, frontPage.fingerprint⟩ (by decide +kernel) rfl).1
  · exact (hagain [shopPage, frontPage] (List.Perm.swap _ _ [])).1

end Shop

end Reconciliation
