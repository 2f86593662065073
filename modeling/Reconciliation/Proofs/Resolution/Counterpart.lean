import Mathlib.Data.List.Forall2
import Mathlib.Data.List.Perm.Basic
import Reconciliation.Proofs.Resolution.Detachment
import Reconciliation.Proofs.Resolution.Reflection

/-! # Fields under other tokens

Under other tokens each application attracts the same content, and the same one acts as the default.
The order tells only who is the last to let content go.
-/
namespace Reconciliation.Pass

variable {ρ : Renaming}

structure Field.Mirrors (ρ : Renaming) (f g : Field) : Prop where
  distinct : f.Distinct
  contested : f.Contested
  contested' : g.Contested
  applications : g.applications.Perm (f.applications.map ρ.storedApplication)
  content : g.content.Perm (f.content.map ρ.storedContent)
  sorted' : g.applications.Pairwise fun a b =>
    (a.record.profile.compare b.record.profile).isLE = true

theorem applications_pairwise_of_sorted {es : List (Stored Record)} (h : Sorted es) :
    (Field.ofPool es).applications.Pairwise fun a b =>
      (a.record.profile.compare b.record.profile).isLE = true := by
  refine h.filterMap _ ?_
  rintro ⟨n, x⟩ ⟨m, y⟩ hxy a ha b hb
  cases x <;> cases ha
  cases y <;> cases hb
  simpa [Record.compare, Record.profile, Record.kind] using hxy

theorem ofPool_mirrors {xs ys : List (Stored Record)} (h : Mirrors ρ xs ys)
    (hc : (Field.ofPool xs).Contested) (hc' : (Field.ofPool ys).Contested) :
    Field.Mirrors ρ (.ofPool xs) (.ofPool ys) := by
  refine ⟨Field.ofPool_distinct h.keyed, hc, hc', ?_, ?_, applications_pairwise_of_sorted h.sorted'⟩
  · have hmap : (Field.ofPool (xs.map ρ.entry)).applications =
        (Field.ofPool xs).applications.map ρ.storedApplication := by
      simp only [Field.ofPool, List.filterMap_map, List.map_filterMap, Function.comp_def,
        Renaming.record_entry, Renaming.application?_onRecord, Option.map_map]
      rfl
    rw [← hmap]
    exact h.perm.filterMap _
  · have hmap : poolContent (xs.map ρ.entry) = (poolContent xs).map ρ.storedContent := by
      simp only [poolContent, List.filterMap_map, List.map_filterMap, Function.comp_def,
        Renaming.record_entry, Renaming.content?_onRecord, Option.map_map]
      rfl
    have hcontent : (poolContent ys).Perm (poolContent (xs.map ρ.entry)) := h.perm.filterMap _
    rw [hmap] at hcontent
    exact (content_perm_poolContent ys).trans
      (hcontent.trans ((content_perm_poolContent xs).map _).symm)

namespace Field.Mirrors

variable {f g : Field}

theorem mem_applications_iff (h : Mirrors ρ f g) {a : Stored Application} (ha : a ∈ f.applications) :
    ρ.storedApplication a ∈ g.applications :=
  h.applications.mem_iff.2 (List.mem_map_of_mem ha)

theorem distinct' (h : Mirrors ρ f g) : g.Distinct :=
  KeysApart.renamed (show KeysApart f.content from h.distinct) h.content

theorem actsAsDefault_iff (h : Mirrors ρ f g) {a : Stored Application} (ha : a ∈ f.applications) :
    g.ActsAsDefault (ρ.storedApplication a) ↔ f.ActsAsDefault a := by
  have hnone : (∀ b ∈ g.applications, b.record.isDefault = false) ↔
      ∀ b ∈ f.applications, b.record.isDefault = false := by
    simp only [h.applications.mem_iff, List.forall_mem_map]
    rfl
  have hmem : ρ.storedApplication a ∈ g.applications ↔ a ∈ f.applications :=
    iff_of_true (h.mem_applications_iff ha) ha
  unfold ActsAsDefault
  rw [hmem, hnone]
  rfl

theorem perm_of_mem_iff (h : Mirrors ρ f g) {cs ds : List (Stored Content)}
    (hcs : cs.Sublist f.content) (hds : ds.Sublist g.content)
    (hmem : ∀ c ∈ f.content, ρ.storedContent c ∈ ds ↔ c ∈ cs) :
    ds.Perm (cs.map ρ.storedContent) := by
  have hf : KeysApart f.content := h.distinct
  have hleft : ds.Nodup := hds.nodup (hf.renamed h.content).nodup
  have hright : (cs.map ρ.storedContent).Nodup := ((hf.sublist hcs).renamed (.refl _)).nodup
  rw [List.perm_ext_iff_of_nodup hleft hright]
  intro d
  rw [List.mem_map]
  constructor
  · intro hd
    obtain ⟨c, hc, rfl⟩ := List.mem_map.1 (h.content.mem_iff.1 (hds.subset hd))
    exact ⟨c, (hmem c hc).1 hd, rfl⟩
  · rintro ⟨c, hc, rfl⟩
    exact (hmem c (hcs.subset hc)).2 hc

theorem mem_content_iff (h : Mirrors ρ f g) {c : Stored Content} (hc : c ∈ f.content) :
    ρ.storedContent c ∈ g.content :=
  h.content.mem_iff.2 (List.mem_map_of_mem hc)

end Field.Mirrors

namespace Field.Mirrors

variable {f g : Field} {runtime : Properties} {v w : Verdict}

theorem judged (h : Mirrors ρ f g) (runtime : Properties) (a : Stored Application)
    {cs ds : List (Stored Content)} (hcs : cs.Sublist f.content) (hds : ds.Sublist g.content)
    (hmem : ∀ c ∈ f.content, ρ.storedContent c ∈ ds ↔ c ∈ cs) :
    Verdict.Mirrors ρ (judge runtime a cs) (judge runtime (ρ.storedApplication a) ds) :=
  judge_mirrors (KeysApart.sublist h.distinct hcs) (h.perm_of_mem_iff hcs hds hmem) runtime a

theorem other (h : Mirrors ρ f g) (hv : v ∈ f.otherVerdicts runtime)
    (hw : w ∈ g.otherVerdicts runtime) (hvw : w.application = ρ.storedApplication v.application) :
    Verdict.Mirrors ρ v w := by
  obtain ⟨i, a, ha, hi, rfl⟩ := mem_otherVerdicts.1 hv
  obtain ⟨j, b, hb, hj, rfl⟩ := mem_otherVerdicts.1 hw
  obtain rfl : b = ρ.storedApplication a := hvw
  refine h.judged runtime a List.filter_sublist List.filter_sublist fun c hc => ?_
  rw [mem_membersAt_iff hb hj, mem_membersAt_iff ha hi]
  exact and_congr (iff_of_true (h.mem_content_iff hc) hc) Iff.rfl

theorem exists_other (h : Mirrors ρ f g) (hv : v ∈ f.otherVerdicts runtime) :
    ∃ w ∈ g.otherVerdicts runtime, Verdict.Mirrors ρ v w := by
  obtain ⟨i, a, ha, hi, rfl⟩ := mem_otherVerdicts.1 hv
  have hmem := List.mem_of_getElem? ha
  obtain ⟨j, hj⟩ := List.mem_iff_getElem?.1 (h.mem_applications_iff hmem)
  have hother : g.effective ≠ some j := fun he =>
    hi ((h.contested.effective_iff ha).2
      ((h.actsAsDefault_iff hmem).1 ((h.contested'.effective_iff hj).1 he)))
  have hw : judge runtime (ρ.storedApplication a) (g.membersAt j) ∈ g.otherVerdicts runtime :=
    mem_otherVerdicts.2 ⟨j, _, hj, hother, rfl⟩
  exact ⟨_, hw, h.other hv hw rfl⟩

theorem exists_other' (h : Mirrors ρ f g) (hw : w ∈ g.otherVerdicts runtime) :
    ∃ v ∈ f.otherVerdicts runtime, Verdict.Mirrors ρ v w := by
  obtain ⟨j, b, hb, hj, rfl⟩ := mem_otherVerdicts.1 hw
  obtain ⟨a, ha, rfl⟩ := List.mem_map.1 (h.applications.mem_iff.1 (List.mem_of_getElem? hb))
  obtain ⟨i, hi⟩ := List.mem_iff_getElem?.1 ha
  have hother : f.effective ≠ some i := fun he =>
    hj ((h.contested'.effective_iff hb).2
      ((h.actsAsDefault_iff ha).2 ((h.contested.effective_iff hi).1 he)))
  have hv : judge runtime a (f.membersAt i) ∈ f.otherVerdicts runtime :=
    mem_otherVerdicts.2 ⟨i, a, hi, hother, rfl⟩
  exact ⟨_, hv, h.other hv hw rfl⟩

theorem unkept_others_iff (h : Mirrors ρ f g) (runtime : Properties) {c : Stored Content}
    (hc : c ∈ f.content) : (∀ w ∈ g.otherVerdicts runtime, ρ.storedContent c ∉ w.kept) ↔
      ∀ v ∈ f.otherVerdicts runtime, c ∉ v.kept := by
  constructor
  · intro hnone v hv
    obtain ⟨w, hw, hvw⟩ := h.exists_other hv
    exact fun hk => hnone w hw (hvw.kept_perm.mem_iff.2 (List.mem_map_of_mem hk))
  · intro hnone w hw hk
    obtain ⟨v, hv, hvw⟩ := h.exists_other' hw
    obtain ⟨d, hd, hdc⟩ := List.mem_map.1 (hvw.kept_perm.mem_iff.1 hk)
    have hmem : d ∈ f.content :=
      (members_sublist (mem_verdicts_of_other hv)).subset (v.kept_sublist.subset hd)
    have heq := KeysApart.eq_of_storedContent (show KeysApart f.content from h.distinct) hmem hc hdc
    exact hnone v hv (heq ▸ hd)

theorem verdict (h : Mirrors ρ f g) (hv : v ∈ f.verdicts runtime) (hw : w ∈ g.verdicts runtime)
    (hvw : w.application = ρ.storedApplication v.application) : Verdict.Mirrors ρ v w := by
  obtain ⟨i, a, ha, rfl⟩ := mem_verdicts.1 hv
  obtain ⟨j, b, hb, rfl⟩ := mem_verdicts.1 hw
  obtain rfl : b = ρ.storedApplication a := hvw
  refine h.judged runtime a (f.tentative_sublist runtime i) (g.tentative_sublist runtime j)
    fun c hc => ?_
  have hacts := h.actsAsDefault_iff (List.mem_of_getElem? ha)
  rw [← h.contested'.effective_iff hb, ← h.contested.effective_iff ha] at hacts
  have hcontent := iff_of_true (h.mem_content_iff hc) hc
  by_cases hi : f.effective = some i
  · rw [tentative, tentative, if_pos hi, if_pos (hacts.2 hi),
      mem_defaultMembers_iff h.distinct' hb (hacts.2 hi), mem_defaultMembers_iff h.distinct ha hi,
      h.unkept_others_iff runtime hc]
    exact and_congr hcontent Iff.rfl
  · rw [tentative, tentative, if_neg hi, if_neg (mt hacts.1 hi),
      mem_membersAt_iff hb (mt hacts.1 hi), mem_membersAt_iff ha hi]
    exact and_congr hcontent Iff.rfl

theorem verdicts (h : Mirrors ρ f g) (runtime : Properties) :
    ∃ ws, ws.Perm (g.verdicts runtime) ∧
      List.Forall₂ (Verdict.Mirrors ρ) (f.verdicts runtime) ws := by
  have happlications : (((f.verdicts runtime).map Verdict.application).map
      ρ.storedApplication).Perm ((g.verdicts runtime).map Verdict.application) :=
    ((f.verdicts_applications runtime).map _).trans
      (h.applications.symm.trans (g.verdicts_applications runtime).symm)
  have hself : List.Forall₂ (fun a w => w.application = a)
      ((g.verdicts runtime).map Verdict.application) (g.verdicts runtime) :=
    List.forall₂_map_left_iff.2 (List.forall₂_same.2 fun _ _ => rfl)
  obtain ⟨ws, hws, hperm⟩ := List.perm_comp_forall₂ happlications hself
  rw [List.map_map, List.forall₂_map_left_iff] at hws
  refine ⟨ws, hperm, ?_⟩
  obtain ⟨hlength, hzip⟩ := List.forall₂_iff_zip.1 hws
  refine List.forall₂_iff_zip.2 ⟨hlength, fun hvw => ?_⟩
  obtain ⟨hv, hw⟩ := List.of_mem_zip hvw
  exact h.verdict hv (hperm.mem_iff.1 hw) (hzip hvw)

theorem exists_verdict (h : Mirrors ρ f g) (hv : v ∈ f.verdicts runtime) :
    ∃ w ∈ g.verdicts runtime, Verdict.Mirrors ρ v w := by
  have ha := (f.verdicts_applications runtime).mem_iff.1 (List.mem_map_of_mem hv)
  have hmem := (g.verdicts_applications runtime).mem_iff.2 (h.mem_applications_iff ha)
  obtain ⟨w, hw, hwv⟩ := List.mem_map.1 hmem
  exact ⟨w, hw, h.verdict hv hw hwv⟩

theorem exists_verdict' (h : Mirrors ρ f g) (hw : w ∈ g.verdicts runtime) :
    ∃ v ∈ f.verdicts runtime, Verdict.Mirrors ρ v w := by
  have hb := (g.verdicts_applications runtime).mem_iff.1 (List.mem_map_of_mem hw)
  obtain ⟨a, ha, hab⟩ := List.mem_map.1 (h.applications.mem_iff.1 hb)
  obtain ⟨v, hv, rfl⟩ := List.mem_map.1 ((f.verdicts_applications runtime).mem_iff.2 ha)
  exact ⟨v, hv, h.verdict hv hw hab.symm⟩

theorem mem_members_iff (h : Mirrors ρ f g) (hv : v ∈ f.verdicts runtime)
    (hvw : Verdict.Mirrors ρ v w) {c : Stored Content} (hc : c ∈ f.content) :
    ρ.storedContent c ∈ w.members ↔ c ∈ v.members := by
  rw [hvw.members.mem_iff, List.mem_map]
  constructor
  · rintro ⟨d, hd, hdc⟩
    have hmem := (members_sublist hv).subset hd
    have heq := KeysApart.eq_of_storedContent (show KeysApart f.content from h.distinct) hmem hc hdc
    exact heq ▸ hd
  · exact fun hm => ⟨c, hm, rfl⟩

theorem exists_host_iff (h : Mirrors ρ f g) (runtime : Properties) {c : Stored Content}
    (hc : c ∈ f.content) : (∃ w ∈ g.verdicts runtime, ρ.storedContent c ∈ w.members) ↔
      ∃ v ∈ f.verdicts runtime, c ∈ v.members := by
  constructor
  · rintro ⟨w, hw, hm⟩
    obtain ⟨v, hv, hvw⟩ := h.exists_verdict' hw
    exact ⟨v, hv, (h.mem_members_iff hv hvw hc).1 hm⟩
  · rintro ⟨v, hv, hm⟩
    obtain ⟨w, hw, hvw⟩ := h.exists_verdict hv
    exact ⟨w, hw, (h.mem_members_iff hv hvw hc).2 hm⟩

end Field.Mirrors

theorem IsLastHost.eq_or_behind {vs : List Verdict} {c : Stored Content} {v w : Verdict}
    {R : Verdict → Verdict → Prop} (hvs : vs.Pairwise R) (h : IsLastHost vs c v) (hw : w ∈ vs)
    (hc : c ∈ w.members) : w = v ∨ R w v := by
  obtain ⟨before, after, rfl, -, hlater⟩ := h
  rcases List.mem_append.1 hw with hw | hw
  · exact Or.inr ((List.pairwise_append.1 hvs).2.2 w hw v List.mem_cons_self)
  · refine Or.inl ((List.mem_cons.1 hw).resolve_right fun hafter => ?_)
    exact hlater w hafter hc

theorem IsLastHost.eq_of_actsAsDefault {f : Field} {runtime : Properties} {c : Stored Content}
    {v w : Verdict} (hf : f.Contested) (h : IsLastHost (f.verdicts runtime) c v)
    (hw : w ∈ f.verdicts runtime) (hc : c ∈ w.members) (hacts : f.ActsAsDefault w.application) :
    w = v := by
  have hall : f.applications.Pairwise fun _ _ => True := List.pairwise_of_forall (by simp)
  have hbehind := h.eq_or_behind (Field.verdicts_pairwise hf hall) hw hc
  exact hbehind.resolve_right fun hbehind => hbehind.1 hacts

/-- Under other tokens the application of the verdict comes behind all others that have the content
among their members. -/
structure IsLastUnder (ρ : Renaming) (vs : List Verdict) (c : Stored Content) (v : Verdict) :
    Prop where
  mem : v ∈ vs
  host : c ∈ v.members
  behind : ∀ u ∈ vs, c ∈ u.members →
    ((ρ.onApplication u.application.record).profile.compare
      (ρ.onApplication v.application.record).profile).isLE = true

/-- Content that nobody keeps is let go last for the same class of reason under other tokens, unless
the acting default has it, which comes last anyway. -/
def Field.KeepsReasons (ρ : Renaming) (f : Field) (runtime : Properties) : Prop :=
  ∀ c v w, (∀ u ∈ f.verdicts runtime, c ∉ u.kept) → IsLastHost (f.verdicts runtime) c v →
    ¬ f.ActsAsDefault v.application → IsLastUnder ρ (f.verdicts runtime) c w →
    w.lossOf c = v.lossOf c

theorem Field.keepsReasons_of_agree {f : Field} {runtime : Properties}
    (h : ∀ v ∈ f.verdicts runtime, ∀ c ∈ v.members, (∀ u ∈ f.verdicts runtime, c ∉ u.kept) →
      ∀ w ∈ f.verdicts runtime, c ∈ w.members → w.lossOf c = v.lossOf c) :
    f.KeepsReasons ρ runtime := by
  intro c v w hn hv _ hw
  have hmem := hv.mem
  obtain ⟨_, _, -, hc, -⟩ := hv
  exact h v hmem c hc hn w hw.mem hw.host

theorem Verdict.lossOf_eq_none {v : Verdict} {c : Stored Content}
    (h : ∀ d ∈ v.members, (Record.content d.record).key ≠ (Record.content c.record).key) :
    v.lossOf c = none := by
  rw [lossOf, Option.map_eq_none_iff, List.find?_eq_none]
  intro d hd hkey
  exact h d.1 (mem_members_of_detached (List.mem_reverse.1 hd)) (beq_iff_eq.1 hkey)

namespace Field

variable {f : Field} {c : Stored Content}

theorem targets_ne_nil_iff (runtime : Properties) (hc : c ∈ f.content) :
    f.targets c.record ≠ [] ↔ ∃ v ∈ f.verdicts runtime, c ∈ v.members := by
  constructor
  · intro hne
    obtain ⟨i, hi⟩ := List.exists_mem_of_ne_nil _ hne
    obtain ⟨a, ha⟩ := getElem?_of_mem_targets hi
    exact ⟨_, mem_verdicts.2 ⟨i, a, ha, rfl⟩, mem_tentative_of_mem_targets hc hi⟩
  · rintro ⟨v, hv, hm⟩
    exact targets_ne_nil_of_member hv hm

theorem not_kept_iff {runtime : Properties} (hd : f.Distinct) (hc : c ∈ f.content) :
    ((f.verdicts runtime).any fun v => v.keeps (Record.content c.record).key) = false ↔
      ∀ v ∈ f.verdicts runtime, c ∉ v.kept := by
  rw [List.any_eq_false]
  exact forall₂_congr fun v hv => not_congr (keeps_of_content hd hc hv)

end Field

theorem Field.lastLoss_eq {f : Field} {runtime : Properties} {c : Stored Content} {v : Verdict}
    (hd : f.Distinct) (hlast : IsLastHost (f.verdicts runtime) c v)
    (hn : ∀ u ∈ f.verdicts runtime, c ∉ u.kept) :
    ((f.verdicts runtime).reverse.findSome? fun u => u.lossOf c) = v.lossOf c := by
  have hv := hlast.mem
  obtain ⟨before, after, hvs, hm, hlater⟩ := hlast
  have hc := (members_sublist hv).subset hm
  have hafter : (after.reverse.findSome? fun u => u.lossOf c) = none := by
    rw [List.findSome?_eq_none_iff]
    intro u hu
    have hu := List.mem_reverse.1 hu
    refine Verdict.lossOf_eq_none fun d hdu hkey => ?_
    have hmem : u ∈ f.verdicts runtime := by
      rw [hvs]
      exact List.mem_append_right _ (List.mem_cons_of_mem v hu)
    exact hlater u hu (eq_of_member_key hd hc hmem hdu hkey ▸ hdu)
  obtain ⟨cause, hcause⟩ := (Verdict.kept_or_detached hm).resolve_left (hn v hv)
  obtain ⟨reason, hreason⟩ : ∃ reason, v.lossOf c = some reason := by
    refine Option.isSome_iff_exists.1 ?_
    rw [Verdict.lossOf, Option.isSome_map, List.find?_isSome]
    exact ⟨_, List.mem_reverse.2 hcause, beq_self_eq_true _⟩
  rw [hvs, List.reverse_append, List.reverse_cons, List.append_assoc, List.findSome?_append, hafter]
  simp [hreason]

theorem contentFailure?_gist (f : Field) (vs : List Verdict) (c : Stored Content) :
    (f.contentFailure? vs c).map Failure.gist =
      if (f.targets c.record).isEmpty then
        some (.content c.record, .requiredApplicationUnavailable)
      else if vs.any fun v => v.keeps (Record.content c.record).key then none
      else (vs.reverse.findSome? fun v => v.lossOf c).map fun reason =>
        (.content c.record, reason) := by
  have hlast : (vs.reverse.findSome? fun v => v.lossOf c) =
      ((vs.flatMap Verdict.detached).reverse.find? fun d =>
        (Record.content d.1.record).key == (Record.content c.record).key).map
          fun d => d.2.reason := by
    rw [List.reverse_flatMap, List.find?_flatMap, List.map_findSome?]
    rfl
  rw [hlast]
  unfold Field.contentFailure?
  dsimp only
  split
  · cases c.record.select <;> rfl
  · split
    · rfl
    · rw [Option.map_map, Option.map_map]
      rfl

namespace Field.Mirrors

variable {f g : Field} {runtime : Properties} {v w : Verdict} {c : Stored Content}

/-- The last hosts let content go for the same class of reason, though they need not be the same. -/
theorem lossOf_lastHost (h : Mirrors ρ f g) (hreasons : f.KeepsReasons ρ runtime)
    (hn : ∀ u ∈ f.verdicts runtime, c ∉ u.kept) (hv : IsLastHost (f.verdicts runtime) c v)
    (hw : IsLastHost (g.verdicts runtime) (ρ.storedContent c) w) :
    w.lossOf (ρ.storedContent c) = v.lossOf c := by
  have hcv : c ∈ v.members := by
    obtain ⟨_, _, -, hm, -⟩ := hv
    exact hm
  have hcw : ρ.storedContent c ∈ w.members := by
    obtain ⟨_, _, -, hm, -⟩ := hw
    exact hm
  have hc := (members_sublist hv.mem).subset hcv
  have hacts {x y : Verdict} (hx : x ∈ f.verdicts runtime) (hxy : Verdict.Mirrors ρ x y) :
      g.ActsAsDefault y.application ↔ f.ActsAsDefault x.application := by
    rw [hxy.application]
    exact h.actsAsDefault_iff ((f.verdicts_applications runtime).mem_iff.1 (List.mem_map_of_mem hx))
  obtain ⟨u, hu, huw⟩ := h.exists_verdict' hw.mem
  have hcu := (h.mem_members_iff hu huw hc).1 hcw
  by_cases hdefault : f.ActsAsDefault v.application
  · obtain ⟨x, hx, hvx⟩ := h.exists_verdict hv.mem
    obtain rfl := hw.eq_of_actsAsDefault h.contested' hx ((h.mem_members_iff hv.mem hvx hc).2 hcv)
      ((hacts hv.mem hvx).2 hdefault)
    exact hvx.lossOf_eq c
  · have hother : ¬ f.ActsAsDefault u.application := fun hacts =>
      hdefault (hv.eq_of_actsAsDefault h.contested hu hcu hacts ▸ hacts)
    rw [huw.lossOf_eq]
    refine hreasons c v u hn hv hdefault ⟨hu, hcu, fun y hy hcy => ?_⟩
    obtain ⟨z, hz, hyz⟩ := h.exists_verdict hy
    have hbehind := hw.eq_or_behind (verdicts_pairwise h.contested' h.sorted') hz
      ((h.mem_members_iff hy hyz hc).2 hcy)
    have hle : (z.application.record.profile.compare w.application.record.profile).isLE = true := by
      rcases hbehind with rfl | ⟨-, hdefault | hle⟩
      · have hself : z.application.record.profile.compare z.application.record.profile = .eq :=
          Std.ReflCmp.compare_self
        rw [hself]
        rfl
      · exact absurd ((hacts hu huw).1 hdefault) hother
      · exact hle
    rw [hyz.application, huw.application] at hle
    exact hle

theorem keeps_any_eq {vs ws : List Verdict} (hvs : List.Forall₂ (Verdict.Mirrors ρ) vs ws)
    (k : Key) : (ws.any fun w => w.keeps (ρ.onKey k)) = vs.any fun v => v.keeps k := by
  induction hvs with
  | nil => rfl
  | cons hv _ ih => rw [List.any_cons, List.any_cons, hv.keeps_eq, ih]

/-- Content of the one field fails for the same class of reason in the other. -/
theorem contentFailure?_gist (h : Mirrors ρ f g) (hreasons : f.KeepsReasons ρ runtime)
    (hc : c ∈ f.content) :
    (g.contentFailure? (g.verdicts runtime) (ρ.storedContent c)).map Failure.gist =
      (f.contentFailure? (f.verdicts runtime) c).map ρ.gist := by
  have hunder : (f.contentFailure? (f.verdicts runtime) c).map ρ.gist =
      ((f.contentFailure? (f.verdicts runtime) c).map Failure.gist).map (Prod.map ρ.onRecord id) := by
    rw [Option.map_map]
    rfl
  obtain ⟨ws, hws, hvs⟩ := h.verdicts runtime
  have hkeeps : ((g.verdicts runtime).any fun w => w.keeps (ρ.onKey (Record.content c.record).key)) =
      (f.verdicts runtime).any fun v => v.keeps (Record.content c.record).key := by
    rw [← keeps_any_eq hvs, hws.any_eq]
  have htargets : (g.targets (ρ.onContent c.record)).isEmpty = (f.targets c.record).isEmpty := by
    have hhosts := (h.exists_host_iff runtime hc).symm.not
    rw [← targets_ne_nil_iff runtime hc, ← targets_ne_nil_iff runtime (h.mem_content_iff hc),
      not_not, not_not] at hhosts
    rw [Bool.eq_iff_iff, List.isEmpty_iff, List.isEmpty_iff]
    exact hhosts.symm
  rw [hunder, Pass.contentFailure?_gist, Pass.contentFailure?_gist, ρ.key_storedContent, hkeeps,
    Renaming.record_storedContent, htargets]
  split
  · rfl
  · next hne =>
    split
    · rfl
    · next hunkept =>
      have hg := h.distinct'
      have hn := (not_kept_iff h.distinct hc).1 (Bool.eq_false_iff.2 hunkept)
      have hn' := (not_kept_iff hg (h.mem_content_iff hc)).1 (hkeeps.trans (Bool.eq_false_iff.2 hunkept))
      have hhost := (targets_ne_nil_iff runtime hc).1 (by simpa using hne)
      obtain ⟨v, hv⟩ := exists_lastHost hhost
      obtain ⟨w, hw⟩ := exists_lastHost ((h.exists_host_iff runtime hc).2 hhost)
      rw [lastLoss_eq h.distinct hv hn, lastLoss_eq hg hw hn', h.lossOf_lastHost hreasons hn hv hw,
        Option.map_map]
      rfl

theorem filterMap_failure?_eq {vs ws : List Verdict} (hvs : List.Forall₂ (Verdict.Mirrors ρ) vs ws) :
    (ws.filterMap fun w => w.failure?.map Failure.gist) =
      vs.filterMap fun v => v.failure?.map ρ.gist := by
  induction hvs with
  | nil => rfl
  | cons hv _ ih => rw [List.filterMap_cons, List.filterMap_cons, hv.failure?, ih]

theorem failures (h : Mirrors ρ f g) (hreasons : f.KeepsReasons ρ runtime) :
    FailuresMirror ρ (f.failures (f.verdicts runtime)) (g.failures (g.verdicts runtime)) := by
  obtain ⟨ws, hws, hvs⟩ := h.verdicts runtime
  refine FailuresMirror.append ?_ ?_
  · have heq : (ws.filterMap Verdict.failure?).map Failure.gist =
        ((f.verdicts runtime).filterMap Verdict.failure?).map ρ.gist := by
      rw [List.map_filterMap, List.map_filterMap]
      exact filterMap_failure?_eq hvs
    rw [FailuresMirror, ← heq]
    exact (hws.symm.filterMap _).map _
  · have hp := h.content.filterMap fun c =>
      (g.contentFailure? (g.verdicts runtime) c).map Failure.gist
    rw [List.filterMap_map] at hp
    rw [FailuresMirror, List.map_filterMap, List.map_filterMap]
    refine hp.trans (List.Perm.of_eq (List.filterMap_congr fun c hc => ?_))
    exact h.contentFailure?_gist hreasons hc

end Field.Mirrors

end Reconciliation.Pass
