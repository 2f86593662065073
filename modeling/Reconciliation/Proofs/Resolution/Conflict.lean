import Reconciliation.Proofs.Provider.Declaration
import Reconciliation.Proofs.Resolution.Attachment

/-! # What is deployed is free of conflicts

Each rule settles a conflict of its own: two applications at one path, two providers of one name,
two default applications. Default applications are exempt from the rule of names, yet no conflict is
left open between the rules: a sound provider bears the reserved name just if it is a default
application.
-/
namespace Reconciliation

/-- Among sound records, those with the reserved name are the default applications. -/
theorem Record.Declared.isDefault_iff {r : Record} (h : r.Declared) (hf : r.fault = none) :
    r.isDefault = true ↔ r.name = Keys.defaultName := by
  obtain ⟨kind, id, p, source, rfl⟩ := h
  cases kind with
  | application => exact Application.isDefault_iff id p
  | resource => exact iff_of_false Bool.false_ne_true (Content.name_ne_default hf)
  | extension => exact iff_of_false Bool.false_ne_true (Content.name_ne_default hf)

namespace Pass

/-- Among those who come out of the rule of names, only default applications share a name without
sharing an id. -/
theorem id_eq_of_afterName {pool : List (Stored Record)} {e e' : Stored Record}
    (he : e ∈ afterRule .name pool) (he' : e' ∈ afterRule .name pool)
    (hd : e.record.isDefault = false) (hd' : e'.record.isDefault = false)
    (hname : e.record.name = e'.record.name) : e.record.id = e'.record.id := by
  have hspare : ∀ w x, (storedContest .name).spares w x = true → w.record.id = x.record.id :=
    fun w x h => beq_iff_eq.1 h
  have hstake : ∀ x : Stored Record, x.record.isDefault = false →
      (storedContest .name).stake x = some x.record.name := by
    intro x hx
    simp [storedContest, Contest.through, Record.contest, nameContest, Record.nameClaim, hx]
  have hjoin : ∀ w x y : Stored Record, w.record.id = x.record.id → w.record.id = y.record.id →
      x.record.id = y.record.id := fun _ _ _ h h' => h.symm.trans h'
  have hp := Contest.survivors_related hspare hjoin pool
  have hsymm : Std.Symm fun x y : Stored Record => ∀ k, (storedContest .name).stake x = some k →
      (storedContest .name).stake y = some k → x.record.id = y.record.id :=
    ⟨fun _ _ h k hk hk' => (h k hk' hk).symm⟩
  by_cases hne : e = e'
  · rw [hne]
  · exact hp.forall he he' hne e.record.name (hstake e hd) (hname ▸ hstake e' hd')

section

variable {es : List (Stored Record)} {runtime : Properties} {e e' : Stored Record}

theorem eq_of_isDefault (he : e ∈ (pools es runtime).afterDefault)
    (he' : e' ∈ (pools es runtime).afterDefault) (hd : e.record.isDefault = true)
    (hd' : e'.record.isDefault = true) : e = e' := by
  obtain ⟨n, r⟩ := e
  obtain ⟨n', r'⟩ := e'
  cases r with
  | content c => cases hd
  | application a =>
    cases r' with
    | content c => cases hd'
    | application a' =>
      have heq := eq_of_apart (defaults_apart es runtime) (a := ⟨n, a⟩) (b := ⟨n', a'⟩)
        (mem_applications.2 he) (mem_applications.2 he') (if_pos hd) (if_pos hd')
      exact congrArg Stored.ofApplication heq

/-- The reserved name is no exception to the rule of names, for it belongs to the default
application alone. -/
theorem id_eq_of_afterDefault (hdeclared : ∀ e ∈ es, e.record.Declared)
    (he : e ∈ (pools es runtime).afterDefault) (he' : e' ∈ (pools es runtime).afterDefault)
    (hname : e.record.name = e'.record.name) : e.record.id = e'.record.id := by
  have hdefault : ∀ x ∈ (pools es runtime).afterDefault,
      (x.record.isDefault = true ↔ x.record.name = Keys.defaultName) := by
    intro x hx
    obtain ⟨hxe, hf⟩ := sound_of_afterDefault hx
    exact (hdeclared x hxe).isDefault_iff hf
  have hsame : e.record.isDefault = true ↔ e'.record.isDefault = true := by
    rw [hdefault e he, hdefault e' he', hname]
  cases hd : e.record.isDefault with
  | true => rw [eq_of_isDefault he he' hd (hsame.1 hd)]
  | false =>
    have hd' : e'.record.isDefault = false := by
      rw [← Bool.not_eq_true, ← hsame, hd]
      exact Bool.false_ne_true
    exact id_eq_of_afterName ((afterRule_sublist _ _).subset he)
      ((afterRule_sublist _ _).subset he') hd hd' hname

end

end Pass

namespace Resolution

def deployed (res : Resolution) : List Record :=
  res.applications.flatMap fun a =>
    .application a.application.record :: a.content.map fun c => .content c.record

structure ConflictFree (res : Resolution) : Prop where
  /-- Applications stand in the order of their base paths, with no path taken twice. -/
  bases : res.applications.Pairwise fun a b => a.base < b.base
  names : ∀ x ∈ res.deployed, ∀ y ∈ res.deployed, x.name = y.name → x.id = y.id
  default_once : ∀ a ∈ res.applications, ∀ b ∈ res.applications,
    a.name = Keys.defaultName → b.name = Keys.defaultName → a = b
  default_named : ∀ a ∈ res.applications,
    a.name = Keys.defaultName → res.defaultApplication = some a.id
  default_deployed : ∀ id, res.defaultApplication = some id →
    ∃ a ∈ res.applications, a.id = id ∧ (a.name = Keys.defaultName ∨ a.base = "/")

end Resolution

namespace Reconciler

variable {r : Reconciler} {s : Snapshot} {runtime : Properties}

theorem mem_deployed {x : Record} (h : x ∈ (r.run s runtime).deployed) :
    ∃ e ∈ (Pass.pools (Pass.candidates r.builtin s) runtime).afterDefault, e.record = x := by
  obtain ⟨a, ha, hx⟩ := List.mem_flatMap.1 h
  rcases List.mem_cons.1 hx with rfl | hx
  · exact ⟨_, Pass.mem_applications.1 (application_mem_field ha), rfl⟩
  · obtain ⟨c, hc, rfl⟩ := List.mem_map.1 hx
    exact ⟨_, Pass.mem_content.1 (content_mem_field ha hc), rfl⟩

theorem mergeSort_base_lt {as : List Accepted} (hn : (as.map Accepted.base).Nodup) :
    (as.mergeSort fun a b => decide (a.base ≤ b.base)).Pairwise fun a b => a.base < b.base := by
  have hle : (as.mergeSort fun a b => decide (a.base ≤ b.base)).Pairwise
      fun a b => decide (a.base ≤ b.base) = true := by
    apply List.pairwise_mergeSort
    · intro a b c hab hbc
      exact decide_eq_true (String.le_trans (of_decide_eq_true hab) (of_decide_eq_true hbc))
    · intro a b
      simpa using String.le_total a.base b.base
  have hperm := List.mergeSort_perm as fun a b => decide (a.base ≤ b.base)
  have hne := (hperm.map Accepted.base).nodup_iff.2 hn
  rw [List.Nodup, List.pairwise_map] at hne
  refine (hle.and hne).imp ?_
  rintro a b ⟨hab, hab'⟩
  exact String.not_le.1 fun hba => hab' (String.le_antisymm (of_decide_eq_true hab) hba)

theorem applications_lt (r : Reconciler) (s : Snapshot) (runtime : Properties) :
    (r.run s runtime).applications.Pairwise fun a b => a.base < b.base := by
  have hperm := (applications_perm r s runtime).map Accepted.base
  exact mergeSort_base_lt (hperm.nodup_iff.1 (accepted_bases_nodup r s runtime))

theorem Fits.eq_of_id (h : r.Fits s) {a b : Stored Application}
    (ha : a ∈ (r.field s runtime).applications) (hb : b ∈ (r.field s runtime).applications)
    (hid : a.record.profile.id = b.record.profile.id) : a = b := by
  have hkey : (Stored.ofApplication a).record.key = (Stored.ofApplication b).record.key :=
    congrArg (Key.mk .application) hid
  have heq := List.inj_on_of_nodup_map (Pass.afterDefault_keys_nodup runtime h.candidates_nodup)
    (Pass.mem_applications.1 ha) (Pass.mem_applications.1 hb) hkey
  obtain ⟨n, a⟩ := a
  obtain ⟨n', b⟩ := b
  simpa [Stored.ofApplication] using heq

/-- What is reported as the default is the application that acts as the default, if it is deployed;
nobody else has its id. -/
theorem defaultApplication_eq_some_iff (h : r.Fits s) {id : ProviderId} :
    (r.run s runtime).defaultApplication = some id ↔
      ∃ a ∈ (r.run s runtime).applications, a.id = id ∧
        (r.field s runtime).ActsAsDefault a.application := by
  have hdefault : (r.run s runtime).defaultApplication =
      (((r.field s runtime).effective.bind fun i => (r.field s runtime).applications[i]?).map
        fun a => a.record.profile.id).filter fun id =>
          (r.accepted s runtime).any fun a => a.id == id := rfl
  have haccepted : ∀ a, a ∈ r.accepted s runtime ↔ a ∈ (r.run s runtime).applications :=
    fun a => (applications_perm r s runtime).mem_iff.symm
  rw [hdefault, Option.filter_eq_some_iff, Option.map_eq_some_iff, List.any_eq_true]
  constructor
  · rintro ⟨⟨e, he, rfl⟩, a, ha, hid⟩
    obtain ⟨i, hi, he⟩ := Option.bind_eq_some_iff.1 he
    have ha := (haccepted a).1 ha
    have hae : a.application = e :=
      h.eq_of_id (application_mem_field ha) (List.mem_of_getElem? he) (beq_iff_eq.1 hid)
    exact ⟨a, ha, beq_iff_eq.1 hid, hae ▸ Pass.Field.actsAsDefault_of_effective hi he⟩
  · rintro ⟨a, ha, rfl, hacts⟩
    obtain ⟨i, hi⟩ := List.getElem?_of_mem hacts.1
    have heffective := ((r.field_contested s runtime).effective_iff hi).2 hacts
    exact ⟨⟨a.application, by rw [heffective, Option.bind_some, hi], rfl⟩, a, (haccepted a).2 ha,
      beq_self_eq_true a.id⟩

/-- A pass over declared providers, of which a store has no others, deploys nothing that is in
conflict. -/
theorem run_conflictFree (r : Reconciler) (s : Snapshot) (runtime : Properties) (h : r.Fits s)
    (hs : s.Declared) (hbuiltin : (Record.application r.builtin).Declared) :
    (r.run s runtime).ConflictFree := by
  have hdeclared : ∀ e ∈ Pass.candidates r.builtin s, e.record.Declared := by
    intro e he
    rcases List.mem_append.1 he with he | he
    · exact hs e he
    · obtain rfl := List.mem_singleton.1 he
      exact hbuiltin
  have hdefault : ∀ a ∈ (r.run s runtime).applications,
      (a.application.record.isDefault = true ↔ a.name = Keys.defaultName) := by
    intro a ha
    obtain ⟨he, hf⟩ := Pass.sound_of_afterDefault
      (Pass.mem_applications.1 (application_mem_field ha))
    exact (hdeclared _ he).isDefault_iff hf
  constructor
  · exact applications_lt r s runtime
  · intro x hx y hy hname
    obtain ⟨e, he, rfl⟩ := mem_deployed hx
    obtain ⟨e', he', rfl⟩ := mem_deployed hy
    exact Pass.id_eq_of_afterDefault hdeclared he he' hname
  · intro a ha b hb hna hnb
    have hab : a.application = b.application :=
      Pass.eq_of_apart (r.field_contested s runtime).defaults (application_mem_field ha)
        (application_mem_field hb) (if_pos ((hdefault a ha).2 hna)) (if_pos ((hdefault b hb).2 hnb))
    exact List.inj_on_of_nodup_map (accepted_bases_nodup r s runtime) ha hb
      (congrArg (fun c => c.record.base) hab)
  · intro a ha hname
    have hacts : (r.field s runtime).ActsAsDefault a.application :=
      ⟨application_mem_field ha, Or.inl ((hdefault a ha).2 hname)⟩
    exact (defaultApplication_eq_some_iff h).2 ⟨a, ha, rfl, hacts⟩
  · intro id hid
    obtain ⟨a, ha, rfl, hacts⟩ := (defaultApplication_eq_some_iff h).1 hid
    exact ⟨a, ha, rfl, hacts.2.imp (hdefault a ha).1 And.right⟩

end Reconciler

namespace Shop

def stall : Record :=
  .ofProperties .application (.registered 4)
    (.ofList [(Keys.name, .text "stall"), (Keys.applicationBase, .text "/shop")]) none

def ledger : Record :=
  .ofProperties .resource (.registered 5) (.ofList [(Keys.name, .text "log")]) none

def home : Record :=
  .ofProperties .application (.registered 6)
    (.ofList [(Keys.name, .text Keys.defaultName), (Keys.applicationBase, .text "/home")]) none

/-- Two applications at one path, two providers of one name, and a rival of the built-in default. -/
def quarrel : Snapshot := ⟨5, [⟨1, shop⟩, ⟨2, logging⟩, ⟨3, stall⟩, ⟨4, ledger⟩, ⟨5, home⟩]⟩

theorem quarrel_declared : quarrel.Declared := by
  simp only [Snapshot.Declared, quarrel, List.forall_mem_cons]
  exact ⟨⟨_, _, _, _, rfl⟩, ⟨_, _, _, _, rfl⟩, ⟨_, _, _, _, rfl⟩, ⟨_, _, _, _, rfl⟩,
    ⟨_, _, _, _, rfl⟩, by simp⟩

theorem quarrel_is_settled : reconciler.Fits quarrel ∧ quarrel.Declared ∧
    (Record.application reconciler.builtin).Declared ∧
    (reconciler.run quarrel .empty).ConflictFree := by
  have hfits : reconciler.Fits quarrel := ⟨by decide +kernel, by decide +kernel⟩
  have hbuiltin : (Record.application reconciler.builtin).Declared :=
    Application.builtin_declared _
  exact ⟨hfits, quarrel_declared, hbuiltin,
    Reconciler.run_conflictFree reconciler quarrel .empty hfits quarrel_declared hbuiltin⟩

end Shop

end Reconciliation
