import Reconciliation.Proofs.Resolution.Field

/-! # A fingerprint says it all

An accepted application lists its content in the order of providers. Where a key and a revision
belong to one record only, its fingerprint therefore determines it: application, content and order.
-/
namespace Reconciliation

/-- Entries under one key that bear one revision are the same. -/
def StampsAreUnique (es : Set (Stored Record)) : Prop :=
  ∀ e ∈ es, ∀ e' ∈ es, e.record.key = e'.record.key → e.revision = e'.revision → e = e'

namespace Accepted

/-- Whatever is deployed comes from these entries, and content is listed by kind in the order of
providers. -/
structure Canonical (a : Accepted) (es : Set (Stored Record)) : Prop where
  application : Stored.ofApplication a.application ∈ es
  content : ∀ c ∈ a.content, Stored.ofContent c ∈ es
  resources : ∀ c ∈ a.resources, c.record.kind = .resource
  extensions : ∀ c ∈ a.extensions, c.record.kind = .extension
  resources_ordered : a.resources.Pairwise Pass.Precedes
  extensions_ordered : a.extensions.Pairwise Pass.Precedes

theorem Canonical.mono {a : Accepted} {es es' : Set (Stored Record)} (h : a.Canonical es)
    (hs : es ⊆ es') : a.Canonical es' :=
  { h with
    application := hs h.application
    content := fun c hc => hs (h.content c hc) }

end Accepted

theorem Pass.Precedes.irrefl (c : Stored Content) : ¬ Pass.Precedes c c := by
  intro h
  have hs : (Record.content c.record).compare (Record.content c.record) = .eq :=
    Std.ReflCmp.compare_self
  rw [Pass.Precedes, hs] at h
  cases h

theorem Pass.Precedes.asymm {c d : Stored Content} (h : Pass.Precedes c d) :
    ¬ Pass.Precedes d c := by
  intro h'
  have hs : (Record.content c.record).compare (Record.content d.record) =
      ((Record.content d.record).compare (Record.content c.record)).swap := Std.OrientedCmp.eq_swap
  rw [Pass.Precedes] at h h'
  rw [h, h'] at hs
  cases hs

theorem Pass.Precedes.ne {c d : Stored Content} (h : Pass.Precedes c d) : c ≠ d := by
  rintro rfl
  exact Pass.Precedes.irrefl c h

theorem eq_of_precedes {cs ds : List (Stored Content)} (hc : cs.Pairwise Pass.Precedes)
    (hd : ds.Pairwise Pass.Precedes) (h : ∀ c, c ∈ cs ↔ c ∈ ds) : cs = ds := by
  have hcn : cs.Nodup := hc.imp Pass.Precedes.ne
  have hdn : ds.Nodup := hd.imp Pass.Precedes.ne
  refine List.Perm.eq_of_pairwise ?_ hc hd ((List.perm_ext_iff_of_nodup hcn hdn).2 h)
  exact fun c d _ _ hcd hdc => absurd hdc hcd.asymm

namespace Accepted

def mark (c : Stored Content) : Kind × ProviderId × Nat :=
  (c.record.kind.kind, c.record.profile.id, c.revision)

theorem content_eq_of_mark {es : Set (Stored Record)} (hu : StampsAreUnique es)
    {c d : Stored Content} (hc : Stored.ofContent c ∈ es) (hd : Stored.ofContent d ∈ es)
    (h : mark c = mark d) : c = d := by
  obtain ⟨hkind, hrest⟩ := Prod.mk.inj h
  obtain ⟨hid, hrevision⟩ := Prod.mk.inj hrest
  have hkey : (Record.content c.record).key = (Record.content d.record).key := by
    rw [Record.key, Record.key, Key.mk.injEq]
    exact ⟨hkind, hid⟩
  have he := hu _ hc _ hd hkey hrevision
  obtain ⟨n, c⟩ := c
  obtain ⟨m, d⟩ := d
  simpa [Stored.ofContent] using he

theorem marks_perm {a b : Accepted} (h : a.fingerprint = b.fingerprint) :
    (a.content.map mark).Perm (b.content.map mark) := by
  have hm : (a.content.map mark).mergeSort (fun x y => (Fingerprint.compareContent x y).isLE) =
      (b.content.map mark).mergeSort fun x y => (Fingerprint.compareContent x y).isLE :=
    congrArg Fingerprint.content h
  have hp := List.mergeSort_perm (a.content.map mark)
    fun x y => (Fingerprint.compareContent x y).isLE
  rw [hm] at hp
  exact hp.symm.trans (List.mergeSort_perm _ _)

/-- Content that one of two applications with equal fingerprints lists, the other lists too. -/
theorem content_subset {es : Set (Stored Record)} (hu : StampsAreUnique es) {a b : Accepted}
    (ha : a.Canonical es) (hb : b.Canonical es) (h : a.fingerprint = b.fingerprint) :
    a.content ⊆ b.content := by
  intro c hc
  obtain ⟨d, hd, hm⟩ := List.mem_map.1 ((marks_perm h).mem_iff.1 (List.mem_map_of_mem hc))
  obtain rfl := content_eq_of_mark hu (hb.content d hd) (ha.content c hc) hm
  exact hd

theorem Canonical.mem_resources_iff {a : Accepted} {es : Set (Stored Record)}
    (h : a.Canonical es) {c : Stored Content} :
    c ∈ a.resources ↔ c ∈ a.content ∧ c.record.kind = .resource := by
  constructor
  · exact fun hc => ⟨List.mem_append_left _ hc, h.resources c hc⟩
  · rintro ⟨hc, hk⟩
    rcases List.mem_append.1 hc with hc | hc
    · exact hc
    · rw [h.extensions c hc] at hk
      cases hk

theorem Canonical.mem_extensions_iff {a : Accepted} {es : Set (Stored Record)}
    (h : a.Canonical es) {c : Stored Content} :
    c ∈ a.extensions ↔ c ∈ a.content ∧ c.record.kind = .extension := by
  constructor
  · exact fun hc => ⟨List.mem_append_right _ hc, h.extensions c hc⟩
  · rintro ⟨hc, hk⟩
    rcases List.mem_append.1 hc with hc | hc
    · rw [h.resources c hc] at hk
      cases hk
    · exact hc

/-- Equal fingerprints mean identical applications with identical content in the same order. -/
theorem Canonical.eq_of_fingerprint {es : Set (Stored Record)} (hu : StampsAreUnique es)
    {a b : Accepted} (ha : a.Canonical es) (hb : b.Canonical es)
    (h : a.fingerprint = b.fingerprint) : a = b := by
  have hcontent : ∀ c, c ∈ a.content ↔ c ∈ b.content := fun c =>
    ⟨fun hc => content_subset hu ha hb h hc, fun hc => content_subset hu hb ha h.symm hc⟩
  have hresources : a.resources = b.resources := by
    apply eq_of_precedes ha.resources_ordered hb.resources_ordered
    intro c
    rw [ha.mem_resources_iff, hb.mem_resources_iff, hcontent]
  have hextensions : a.extensions = b.extensions := by
    apply eq_of_precedes ha.extensions_ordered hb.extensions_ordered
    intro c
    rw [ha.mem_extensions_iff, hb.mem_extensions_iff, hcontent]
  have happlication : Stored.ofApplication a.application = Stored.ofApplication b.application := by
    have hid : a.id = b.id := congrArg Fingerprint.application h
    have hrevision : a.application.revision = b.application.revision :=
      congrArg Fingerprint.revision h
    exact hu _ ha.application _ hb.application (congrArg (Key.mk .application) hid) hrevision
  obtain ⟨⟨n, app⟩, resources, extensions⟩ := a
  obtain ⟨⟨m, app'⟩, resources', extensions'⟩ := b
  simp only [Stored.ofApplication, Stored.mk.injEq, Record.application.injEq] at happlication
  simp only [mk.injEq, Stored.mk.injEq]
  exact ⟨happlication, hresources, hextensions⟩

end Accepted

namespace Reconciler

theorem accepted_canonical {r : Reconciler} {s : Snapshot} (h : s.Keyed) {runtime : Properties}
    {a : Accepted} (ha : a ∈ (r.run s runtime).applications) :
    a.Canonical {e | e ∈ Pass.candidates r.builtin s} := by
  obtain ⟨v, hv, hva⟩ := mem_applications.1 ha
  obtain ⟨-, -, hresources, hextensions⟩ := Pass.Verdict.accepted?_eq_some hva
  obtain ⟨i, app, -, rfl⟩ := Pass.Field.mem_verdicts.1 hv
  let v := Pass.judge runtime app ((r.field s runtime).tentative runtime i)
  have hremaining : v.remaining.Sublist (r.field s runtime).content :=
    v.remaining_sublist.trans (Pass.Field.tentative_sublist _ runtime i)
  have hordered : ∀ kind : ContentKind,
      (v.remaining.filter fun c => c.record.kind == kind).Pairwise Pass.Precedes :=
    fun kind => (field_content_precedes h runtime kind).sublist (hremaining.filter _)
  constructor
  · exact mem_field (List.mem_append_left _ (List.mem_map_of_mem (application_mem_field ha)))
  · intro c hc
    exact mem_field (List.mem_append_right _ (List.mem_map_of_mem (content_mem_field ha hc)))
  · intro c hc
    rw [hresources] at hc
    exact beq_iff_eq.1 (List.mem_filter.1 hc).2
  · intro c hc
    rw [hextensions] at hc
    exact beq_iff_eq.1 (List.mem_filter.1 hc).2
  · rw [hresources]
    exact hordered .resource
  · rw [hextensions]
    exact hordered .extension

end Reconciler

end Reconciliation
