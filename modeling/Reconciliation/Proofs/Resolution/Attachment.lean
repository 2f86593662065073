import Reconciliation.Proofs.Resolution.Field

/-! # Who gets which content

Attachment happens in two rounds: the effective default is settled after all others, and content
that none of them keeps falls to it. What comes of the two rounds is one rule for each application.
-/
namespace Reconciliation

namespace Content

/-- The content has a selector other than the default marker, and the application meets it. -/
def Selects (c : Content) (a : Application) : Prop :=
  c.targetsDefault = false ∧ ∃ sel, c.select = some sel ∧ sel.accepts a.profile.properties = true

/-- The content has no selector, and the application is neither a default nor mounted at `/`. -/
def Joins (c : Content) (a : Application) : Prop :=
  c.select = none ∧ a.isDefault = false ∧ a.base ≠ "/"

theorem targetsDefault_of_select_none {c : Content} (h : c.select = none) :
    c.targetsDefault = false := by
  simp [targetsDefault, h]

theorem joins_iff {c : Content} {a : Application} (hs : c.select = none) :
    (!a.isDefault && !a.standsIn) = true ↔ c.Joins a := by
  cases hd : a.isDefault <;> simp [Joins, Application.standsIn, hs, hd]

theorem attachesTo_false_iff (c : Content) (a : Application) :
    c.attachesTo a false = true ↔ c.Joins a ∨ c.Selects a := by
  unfold attachesTo
  cases ht : c.targetsDefault with
  | true =>
    have hs : c.select ≠ none := by
      intro hs
      rw [targetsDefault_of_select_none hs] at ht
      cases ht
    simp [Joins, Selects, ht, hs]
  | false =>
    cases hs : c.select with
    | none =>
      simp only [Bool.false_eq_true, if_false]
      rw [joins_iff hs]
      simp [Selects, hs]
    | some sel => simp [Joins, Selects, ht, hs]

theorem attachesTo_true_iff (c : Content) (a : Application) :
    c.attachesTo a true = true ↔ c.targetsDefault = true ∨ c.Joins a ∨ c.Selects a := by
  rw [← attachesTo_false_iff]
  unfold attachesTo
  cases ht : c.targetsDefault <;> simp

end Content

namespace Pass.Field

/-- The application is named the default, or it is mounted at the root and none is named so. -/
def ActsAsDefault (f : Field) (e : Stored Application) : Prop :=
  e ∈ f.applications ∧ (e.record.isDefault = true ∨
    (∀ a ∈ f.applications, a.record.isDefault = false) ∧ e.record.base = "/")

/-- No two applications share a base path, and one of them at most is a default application. -/
structure Contested (f : Field) : Prop where
  bases : f.applications.Pairwise (Apart pathContest)
  defaults : f.applications.Pairwise (Apart defaultContest)

section

variable {f : Field}

theorem Contested.nodup (h : f.Contested) : f.applications.Nodup := by
  apply h.bases.imp
  rintro a b hab rfl
  exact hab _ rfl rfl

theorem Contested.default_unique (h : f.Contested) {e e' : Stored Application}
    (he : f.ActsAsDefault e) (he' : f.ActsAsDefault e') : e = e' := by
  obtain ⟨hm, hd⟩ := he
  obtain ⟨hm', hd'⟩ := he'
  rcases hd with hd | ⟨hnone, hbase⟩
  · rcases hd' with hd' | ⟨hnone', -⟩
    · have hstake : ∀ a : Application, a.isDefault = true →
          defaultContest.stake a = some Keys.defaultName := fun a ha => if_pos ha
      exact eq_of_apart h.defaults hm hm' (hstake _ hd) (hstake _ hd')
    · rw [hnone' e hm] at hd
      cases hd
  · rcases hd' with hd' | ⟨-, hbase'⟩
    · rw [hnone e' hm'] at hd'
      cases hd'
    · exact eq_of_apart h.bases hm hm' (congrArg some hbase) (congrArg some hbase')

theorem actsAsDefault_of_effective {i : Nat} {e : Stored Application} (h : f.effective = some i)
    (he : f.applications[i]? = some e) : f.ActsAsDefault e := by
  obtain ⟨hlt, hget⟩ := List.getElem?_eq_some_iff.1 he
  refine ⟨List.mem_of_getElem? he, ?_⟩
  rcases Option.or_eq_some_iff.1 h with h | ⟨hnone, h⟩
  · obtain ⟨_, hd, -⟩ := List.findIdx?_eq_some_iff_getElem.1 h
    rw [hget] at hd
    exact Or.inl hd
  · obtain ⟨_, hs, -⟩ := List.findIdx?_eq_some_iff_getElem.1 h
    rw [hget] at hs
    simp only [Application.standsIn, Bool.and_eq_true, beq_iff_eq] at hs
    refine Or.inr ⟨?_, hs.2⟩
    intro a ha
    simpa using List.findIdx?_eq_none_iff.1 hnone a ha

/-- The place that is looked up holds the application that acts as the default. -/
theorem Contested.effective_iff (h : f.Contested) {i : Nat} {e : Stored Application}
    (he : f.applications[i]? = some e) : f.effective = some i ↔ f.ActsAsDefault e := by
  constructor
  · exact fun hi => actsAsDefault_of_effective hi he
  · intro hd
    cases hj : f.effective with
    | none =>
      obtain ⟨hnone, hstand⟩ := Option.or_eq_none_iff.1 hj
      have hdefault := List.findIdx?_eq_none_iff.1 hnone e hd.1
      have hstands := List.findIdx?_eq_none_iff.1 hstand e hd.1
      rcases hd.2 with hdef | ⟨-, hbase⟩
      · simp [hdef] at hdefault
      · simp only [Application.standsIn, hbase, beq_self_eq_true, Bool.and_true] at hstands
        simp [hdefault] at hstands
    | some j =>
      have hlt := effective_lt hj
      have hget : f.applications[j]? = some f.applications[j] := List.getElem?_eq_getElem hlt
      have heq := h.default_unique (actsAsDefault_of_effective hj hget) hd
      obtain ⟨hi, hei⟩ := List.getElem?_eq_some_iff.1 he
      have hij : j = i := (List.Nodup.getElem_inj_iff h.nodup).1 (heq.trans hei.symm)
      rw [hij]

/-- The places of the applications that the content is attached to without falling back. -/
def attached (f : Field) (c : Content) : List Nat :=
  f.applications.zipIdx.filterMap fun x =>
    if c.attachesTo x.1.record (f.effective == some x.2) then some x.2 else none

theorem mem_attached_iff {c : Content} {i : Nat} : i ∈ f.attached c ↔
    ∃ a, f.applications[i]? = some a ∧ c.attachesTo a.record (f.effective == some i) = true := by
  simp only [attached, List.mem_filterMap, Prod.exists, List.mem_zipIdx_iff_getElem?]
  constructor
  · rintro ⟨a, k, ha, hk⟩
    split at hk
    · rename_i hc
      obtain rfl := Option.some.inj hk
      exact ⟨a, ha, hc⟩
    · cases hk
  · rintro ⟨a, ha, hc⟩
    exact ⟨a, i, ha, if_pos hc⟩

theorem targets_eq (f : Field) (c : Content) : f.targets c =
    if (f.attached c).isEmpty && c.fallsBack then f.effective.toList else f.attached c := rfl

theorem mem_targets_iff {c : Content} {i : Nat} : i ∈ f.targets c ↔
    (∃ a, f.applications[i]? = some a ∧ c.attachesTo a.record (f.effective == some i) = true) ∨
    (c.fallsBack = true ∧ f.effective = some i ∧
      ∀ j a, f.applications[j]? = some a →
        c.attachesTo a.record (f.effective == some j) = false) := by
  have hown : ∀ j, j ∈ f.attached c ↔
      ∃ a, f.applications[j]? = some a ∧ c.attachesTo a.record (f.effective == some j) = true :=
    fun _ => mem_attached_iff
  rw [targets_eq]
  generalize f.attached c = own at hown
  cases own with
  | nil =>
    have hnone : ∀ j a, f.applications[j]? = some a →
        c.attachesTo a.record (f.effective == some j) = false := by
      intro j a ha
      by_contra hc
      exact List.not_mem_nil ((hown j).2 ⟨a, ha, by simpa using hc⟩)
    cases hf : c.fallsBack with
    | true =>
      rw [← hown]
      simpa using fun _ : f.effective = some i => hnone
    | false =>
      rw [← hown]
      simp
  | cons k own =>
    obtain ⟨a, ha, hc⟩ := (hown k).1 List.mem_cons_self
    have hsome : ¬ ∀ j a, f.applications[j]? = some a →
        c.attachesTo a.record (f.effective == some j) = false := by
      intro hnone
      rw [hnone k a ha] at hc
      cases hc
    rw [← hown]
    simp only [List.isEmpty_cons, Bool.false_and, Bool.false_eq_true, if_false, hsome, and_false,
      or_false]

theorem targets_ne_nil_of_fallsBack {c : Content} {i : Nat} (hf : c.fallsBack = true)
    (hi : f.effective = some i) : f.targets c ≠ [] := by
  rw [targets_eq]
  split
  · simp [hi]
  · rename_i hown
    simpa [hf] using hown

theorem mem_membersAt_iff {c : Stored Content} {i : Nat} {a : Stored Application}
    (ha : f.applications[i]? = some a) (hi : f.effective ≠ some i) :
    c ∈ f.membersAt i ↔ c ∈ f.content ∧ (c.record.Joins a.record ∨ c.record.Selects a.record) := by
  have hbeq : (f.effective == some i) = false := beq_eq_false_iff_ne.2 hi
  have htarget : i ∈ f.targets c.record ↔ c.record.attachesTo a.record false = true := by
    rw [mem_targets_iff, hbeq]
    constructor
    · rintro (⟨a', ha', hc⟩ | ⟨-, he, -⟩)
      · obtain rfl := Option.some.inj (ha.symm.trans ha')
        exact hc
      · exact absurd he hi
    · exact fun hc => Or.inl ⟨a, ha, hc⟩
  rw [membersAt, List.mem_filter, List.contains_iff_mem, htarget, Content.attachesTo_false_iff]

theorem mem_verdicts_of_other {runtime : Properties} {v : Verdict}
    (hv : v ∈ f.otherVerdicts runtime) : v ∈ f.verdicts runtime := by
  obtain ⟨j, a, ha, hj, rfl⟩ := mem_otherVerdicts.1 hv
  exact mem_verdicts.2 ⟨j, a, ha, by rw [tentative, if_neg hj]⟩

theorem mem_defaultMembers_iff (hd : f.Distinct) {runtime : Properties} {c : Stored Content}
    {i : Nat} {e : Stored Application} (he : f.applications[i]? = some e)
    (hi : f.effective = some i) :
    c ∈ f.defaultMembers i (f.otherVerdicts runtime) ↔ c ∈ f.content ∧
      (c.record.targetsDefault = true ∨ c.record.Selects e.record ∨
        c.record.select = none ∧ ∀ v ∈ f.otherVerdicts runtime, c ∉ v.kept) := by
  have hbeq : (f.effective == some i) = true := beq_iff_eq.2 hi
  have hjoin : ¬ c.record.Joins e.record := by
    rintro ⟨-, hdef, hbase⟩
    rcases (actsAsDefault_of_effective hi he).2 with h | ⟨-, h⟩
    · rw [h] at hdef
      cases hdef
    · exact hbase h
  have hown : c.record.attachesTo e.record (f.effective == some i) = true ↔
      c.record.targetsDefault = true ∨ c.record.Selects e.record := by
    rw [hbeq, Content.attachesTo_true_iff]
    simp only [hjoin, false_or]
  have hfalls : c.record.fallsBack = true ↔
      c.record.select = none ∨ c.record.targetsDefault = true := by
    simp [Content.fallsBack]
  rw [defaultMembers, List.mem_filter, Bool.or_eq_true, List.contains_iff_mem]
  apply and_congr_right
  intro hc
  have hkeeps : (f.otherVerdicts runtime).any
      (fun v => v.keeps (Record.content c.record).key) = false ↔
      ∀ v ∈ f.otherVerdicts runtime, c ∉ v.kept := by
    rw [List.any_eq_false]
    apply forall_congr'
    intro v
    apply forall_congr'
    intro hv
    rw [keeps_of_content hd hc (mem_verdicts_of_other hv)]
  constructor
  · rintro (ht | hh)
    · rcases mem_targets_iff.1 ht with ⟨a, ha, hatt⟩ | ⟨hf, -, hnone⟩
      · obtain rfl := Option.some.inj (he.symm.trans ha)
        exact (hown.1 hatt).imp id Or.inl
      · rcases hfalls.1 hf with hs | hm
        · refine Or.inr (Or.inr ⟨hs, ?_⟩)
          intro v hv hk
          obtain ⟨j, a, ha, hj, rfl⟩ := mem_otherVerdicts.1 hv
          have hm := (Verdict.kept_sublist _).subset hk
          have hjt : j ∈ f.targets c.record := List.contains_iff_mem.1 (List.mem_filter.1 hm).2
          rcases mem_targets_iff.1 hjt with ⟨b, hb, hatt⟩ | ⟨-, hje, -⟩
          · rw [hnone j b hb] at hatt
            cases hatt
          · exact hj hje
        · exact Or.inl hm
    · simp only [isHomeless, Bool.and_eq_true, Bool.not_eq_true'] at hh
      obtain ⟨⟨hf, -⟩, hany⟩ := hh
      rcases hfalls.1 hf with hs | hm
      · exact Or.inr (Or.inr ⟨hs, hkeeps.1 hany⟩)
      · exact Or.inl hm
  · rintro (hm | hs | ⟨hs, hnone⟩)
    · exact Or.inl (mem_targets_iff.2 (Or.inl ⟨e, he, hown.2 (Or.inl hm)⟩))
    · exact Or.inl (mem_targets_iff.2 (Or.inl ⟨e, he, hown.2 (Or.inr hs)⟩))
    · right
      have hf : c.record.fallsBack = true := hfalls.2 (Or.inl hs)
      have hne := targets_ne_nil_of_fallsBack hf hi
      simp only [isHomeless, hf, hkeeps.2 hnone, Bool.true_and, Bool.not_false, Bool.and_true,
        Bool.not_eq_true']
      simpa using hne

theorem kept_by_others_iff (h : f.Contested) (runtime : Properties) (c : Stored Content) {i : Nat}
    {e : Stored Application} (he : f.applications[i]? = some e) (hi : f.effective = some i) :
    (∃ v ∈ f.otherVerdicts runtime, c ∈ v.kept) ↔
      ∃ v ∈ f.verdicts runtime, ∃ b, v.accepted? = some b ∧ b.application ≠ e ∧ c ∈ b.content := by
  constructor
  · rintro ⟨v, hv, hk⟩
    obtain ⟨b, hb⟩ := Verdict.exists_accepted_of_kept hk
    refine ⟨v, mem_verdicts_of_other hv, b, hb, ?_, ?_⟩
    · intro hbe
      obtain ⟨j, a, ha, hj, rfl⟩ := mem_otherVerdicts.1 hv
      have hae : a = e := (Verdict.application_of_accepted? hb).symm.trans hbe
      obtain ⟨hlt, hget⟩ := List.getElem?_eq_some_iff.1 ha
      obtain ⟨hlt', hget'⟩ := List.getElem?_eq_some_iff.1 he
      have hij : j = i :=
        (List.Nodup.getElem_inj_iff h.nodup).1 (hget.trans (hae.trans hget'.symm))
      exact hj (hij ▸ hi)
    · exact (Verdict.content_perm_kept hb).mem_iff.2 hk
  · rintro ⟨v, hv, b, hb, hne, hc⟩
    obtain ⟨j, a, ha, rfl⟩ := mem_verdicts.1 hv
    have hba : b.application = a := Verdict.application_of_accepted? hb
    have hj : f.effective ≠ some j := by
      intro hj
      obtain rfl := Option.some.inj (hi.symm.trans hj)
      exact hne (hba.trans (Option.some.inj (ha.symm.trans he)))
    have hk := (Verdict.content_perm_kept hb).mem_iff.1 hc
    rw [tentative, if_neg hj] at hk
    exact ⟨_, mem_otherVerdicts.2 ⟨j, a, ha, hj, rfl⟩, hk⟩

end

end Pass.Field

namespace Reconciler

/-- Content is attached by the rule: what each surviving application is judged with, and what comes
of it. -/
structure AttachesByRule (r : Reconciler) (s : Snapshot) (runtime : Properties) : Prop where
  /-- Applications have survived all three rules. -/
  applications : ∀ a, a ∈ (r.field s runtime).applications ↔
    Stored.ofApplication a ∈ (Pass.pools (Pass.candidates r.builtin s) runtime).afterDefault
  /-- Content was admitted and has survived the rule of names. -/
  content : ∀ c, c ∈ (r.field s runtime).content ↔
    Stored.ofContent c ∈ (Pass.pools (Pass.candidates r.builtin s) runtime).afterName
  default_unique : ∀ e e', (r.field s runtime).ActsAsDefault e →
    (r.field s runtime).ActsAsDefault e' → e = e'
  judged_once : ∀ a ∈ (r.field s runtime).applications,
    ∃! v, v ∈ r.verdicts s runtime ∧ v.application = a
  /-- The verdict is the settled outcome of the dependency check. -/
  checked : ∀ v ∈ r.verdicts s runtime, v.application ∈ (r.field s runtime).applications ∧
    v.members.Sublist (r.field s runtime).content ∧
    v.outcome = (Pass.siteOf runtime v.application v.members).check
  members : ∀ v ∈ r.verdicts s runtime, ¬ (r.field s runtime).ActsAsDefault v.application →
    ∀ c, c ∈ v.members ↔ c ∈ (r.field s runtime).content ∧
      (c.record.Joins v.application.record ∨ c.record.Selects v.application.record)
  default_members : ∀ v ∈ r.verdicts s runtime, (r.field s runtime).ActsAsDefault v.application →
    ∀ c, c ∈ v.members ↔ c ∈ (r.field s runtime).content ∧
      (c.record.targetsDefault = true ∨ c.record.Selects v.application.record ∨
        c.record.select = none ∧ ∀ b ∈ (r.run s runtime).applications,
          b.application ≠ v.application → c ∉ b.content)
  /-- An accepted application lists the members that stay. -/
  accepted : ∀ b, b ∈ (r.run s runtime).applications ↔
    ∃ v ∈ r.verdicts s runtime, v.outcome.application = none ∧ b.application = v.application ∧
      b.resources = v.remaining.filter (fun c => c.record.kind == .resource) ∧
      b.extensions = v.remaining.filter (fun c => c.record.kind == .extension)
  /-- Content without a selector is not with the default and with another application at once. -/
  apart : ∀ a ∈ (r.run s runtime).applications, ∀ b ∈ (r.run s runtime).applications,
    (r.field s runtime).ActsAsDefault a.application → b.application ≠ a.application →
      ∀ c ∈ a.content, c.record.select = none → c ∉ b.content

variable {r : Reconciler} {s : Snapshot} {runtime : Properties}

theorem field_contested (r : Reconciler) (s : Snapshot) (runtime : Properties) :
    (r.field s runtime).Contested :=
  ⟨Pass.bases_apart _ runtime, Pass.defaults_apart _ runtime⟩

theorem field_content_iff {c : Stored Content} : c ∈ (r.field s runtime).content ↔
    Stored.ofContent c ∈ (Pass.pools (Pass.candidates r.builtin s) runtime).afterName := by
  have hmem : ∀ pool : List (Stored Record),
      c ∈ Pass.poolContent pool ↔ Stored.ofContent c ∈ pool := by
    intro pool
    rw [← Pass.mem_content, (Pass.content_perm_poolContent pool).mem_iff]
  rw [field, Pass.mem_content, ← hmem, ← hmem, Pass.poolContent_afterDefault]

theorem judged_once {a : Stored Application} (ha : a ∈ (r.field s runtime).applications) :
    ∃! v, v ∈ r.verdicts s runtime ∧ v.application = a := by
  have hperm := (r.field s runtime).verdicts_applications runtime
  obtain ⟨v, hv, hva⟩ := List.mem_map.1 (hperm.mem_iff.2 ha)
  refine ⟨v, ⟨hv, hva⟩, ?_⟩
  rintro w ⟨hw, hwa⟩
  exact List.inj_on_of_nodup_map (hperm.nodup_iff.2 (r.field_contested s runtime).nodup) hw hv
    (hwa.trans hva.symm)

theorem mem_applications_iff {b : Accepted} : b ∈ (r.run s runtime).applications ↔
    ∃ v ∈ r.verdicts s runtime, v.outcome.application = none ∧ b.application = v.application ∧
      b.resources = v.remaining.filter (fun c => c.record.kind == .resource) ∧
      b.extensions = v.remaining.filter (fun c => c.record.kind == .extension) := by
  rw [mem_applications]
  constructor
  · rintro ⟨v, hv, hb⟩
    exact ⟨v, hv, Pass.Verdict.accepted?_eq_some hb⟩
  · rintro ⟨v, hv, hnone, happ, hresources, hextensions⟩
    refine ⟨v, hv, ?_⟩
    obtain ⟨app, resources, extensions⟩ := b
    simp only at happ hresources hextensions
    simp [Pass.Verdict.accepted?, Pass.Verdict.kept, hnone, happ, hresources, hextensions]

theorem members_iff {v : Pass.Verdict} (hv : v ∈ r.verdicts s runtime)
    (hother : ¬ (r.field s runtime).ActsAsDefault v.application) {c : Stored Content} :
    c ∈ v.members ↔ c ∈ (r.field s runtime).content ∧
      (c.record.Joins v.application.record ∨ c.record.Selects v.application.record) := by
  obtain ⟨i, a, ha, rfl⟩ := Pass.Field.mem_verdicts.1 hv
  have hi : (r.field s runtime).effective ≠ some i :=
    fun hi => hother (Pass.Field.actsAsDefault_of_effective hi ha)
  rw [Pass.Field.tentative, if_neg hi]
  exact Pass.Field.mem_membersAt_iff ha hi

theorem default_members_iff (h : s.Keyed) {v : Pass.Verdict} (hv : v ∈ r.verdicts s runtime)
    (hdefault : (r.field s runtime).ActsAsDefault v.application) {c : Stored Content} :
    c ∈ v.members ↔ c ∈ (r.field s runtime).content ∧
      (c.record.targetsDefault = true ∨ c.record.Selects v.application.record ∨
        c.record.select = none ∧ ∀ b ∈ (r.run s runtime).applications,
          b.application ≠ v.application → c ∉ b.content) := by
  have hcontested := r.field_contested s runtime
  obtain ⟨i, e, he, rfl⟩ := Pass.Field.mem_verdicts.1 hv
  have hi : (r.field s runtime).effective = some i := (hcontested.effective_iff he).2 hdefault
  have hothers : (∀ v ∈ (r.field s runtime).otherVerdicts runtime, c ∉ v.kept) ↔
      ∀ b ∈ (r.run s runtime).applications, b.application ≠ e → c ∉ b.content := by
    have hkept := Pass.Field.kept_by_others_iff hcontested runtime c he hi
    constructor
    · intro hnone b hb hne hc
      obtain ⟨v, hv, hvb⟩ := mem_applications.1 hb
      obtain ⟨w, hw, hk⟩ := hkept.2 ⟨v, hv, b, hvb, hne, hc⟩
      exact hnone w hw hk
    · intro hnone v hv hk
      obtain ⟨w, hw, b, hb, hne, hc⟩ := hkept.1 ⟨v, hv, hk⟩
      exact hnone b (mem_applications.2 ⟨w, hw, hb⟩) hne hc
  rw [Pass.Field.tentative, if_pos hi]
  change c ∈ (r.field s runtime).defaultMembers i ((r.field s runtime).otherVerdicts runtime) ↔ _
  rw [Pass.Field.mem_defaultMembers_iff (field_distinct h runtime) he hi, hothers]
  rfl

/-- In every pass content is attached by the rule. -/
theorem run_attaches_by_rule (r : Reconciler) {s : Snapshot} (h : s.Keyed) (runtime : Properties) :
    r.AttachesByRule s runtime where
  applications _ := Pass.mem_applications
  content _ := field_content_iff
  default_unique _ _ := (r.field_contested s runtime).default_unique
  judged_once _ := judged_once
  checked := by
    intro v hv
    obtain ⟨i, a, ha, rfl⟩ := Pass.Field.mem_verdicts.1 hv
    exact ⟨List.mem_of_getElem? ha, (r.field s runtime).tentative_sublist runtime i,
      Pass.judge_outcome runtime a _⟩
  members _ hv hother _ := members_iff hv hother
  default_members _ hv hdefault _ := default_members_iff h hv hdefault
  accepted _ := mem_applications_iff
  apart := by
    intro a ha b hb hdefault hne c hc hs
    obtain ⟨v, hv, hva⟩ := mem_applications.1 ha
    rw [Pass.Verdict.application_of_accepted? hva] at hdefault hne
    have hm : c ∈ v.members :=
      (Pass.Verdict.kept_sublist v).subset ((Pass.Verdict.content_perm_kept hva).mem_iff.1 hc)
    rcases ((default_members_iff h hv hdefault).1 hm).2 with ht | ⟨-, sel, hsel, -⟩ | ⟨-, hnone⟩
    · rw [Content.targetsDefault_of_select_none hs] at ht
      cases ht
    · cases hs.symm.trans hsel
    · exact hnone b hb hne

end Reconciler

namespace Shop

/-- The basket has no selector, so it is handed to the shop. -/
theorem basket_goes_to_shop : store.Keyed ∧ reconciler.AttachesByRule store .empty ∧
    ∃ v ∈ reconciler.verdicts store .empty, v.application.record.base = "/shop" ∧
      ∃ c ∈ v.members, Stored.ofContent c = ⟨3, basket⟩ := by
  have hkeyed : store.Keyed := by decide +kernel
  have hrule := reconciler.run_attaches_by_rule hkeyed .empty
  have hv : ∃ v ∈ reconciler.verdicts store .empty,
      v.application.record.base = "/shop" ∧ v.application.record.isDefault = false := by
    rw [Reconciler.verdicts, Reconciler.field, Pass.pools, admitted_eq]
    decide +kernel
  have hc : ∃ c ∈ (reconciler.field store .empty).content,
      Stored.ofContent c = ⟨3, basket⟩ ∧ c.record.select = none := by
    rw [Reconciler.field, Pass.pools, admitted_eq]
    decide +kernel
  obtain ⟨v, hv, hbase, hdefault⟩ := hv
  obtain ⟨c, hc, hbasket, hselect⟩ := hc
  have hother : ¬ (reconciler.field store .empty).ActsAsDefault v.application := by
    rintro ⟨-, hd | ⟨-, hroot⟩⟩
    · rw [hdefault] at hd
      cases hd
    · exact absurd (hbase.symm.trans hroot) (by decide +kernel)
  have hroot : v.application.record.base ≠ "/" := by
    rw [hbase]
    decide +kernel
  have hm := (hrule.members v hv hother c).2 ⟨hc, Or.inl ⟨hselect, hdefault, hroot⟩⟩
  exact ⟨hkeyed, hrule, v, hv, hbase, c, hm, hbasket⟩

end Shop

end Reconciliation
