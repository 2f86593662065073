import Reconciliation.CommandLine.Execution
import Reconciliation.Proofs.Resolution.Parallel
import Reconciliation.Proofs.Resolution.Precedence
import Reconciliation.Proofs.Store.Enrolment

/-! # What a check foretells

A check gives tokens to the registrations first and to the built-in default application last; a run
does it the other way around. A token says nothing about a provider, but it takes part in the order
of providers. As long as the order stays, the check shows what the run will come to.
-/
namespace Reconciliation

namespace Renaming

/-- The token `last` comes first, and those before it come one later. -/
def moved (last t : Nat) : Nat :=
  if t = 0 ∨ last < t then t else if t = last then 1 else t + 1

theorem moved_injective (last : Nat) : Function.Injective (moved last) := by
  intro t u h
  unfold moved at h
  grind

def moveToFront (last : Nat) : Renaming := ⟨moved last, moved_injective last⟩

theorem token_before {last t : Nat} (hpos : 1 ≤ t) (hlt : t < last) :
    (moveToFront last).token t = t + 1 := by
  have hinside : ¬ (t = 0 ∨ last < t) := by omega
  change moved last t = t + 1
  rw [moved, if_neg hinside, if_neg (Nat.ne_of_lt hlt)]

theorem token_last {last : Nat} (hpos : 1 ≤ last) : (moveToFront last).token last = 1 := by
  have hinside : ¬ (last = 0 ∨ last < last) := by omega
  change moved last last = 1
  rw [moved, if_neg hinside, if_pos rfl]

end Renaming

namespace Manifest

def lastToken (m : Manifest) : Nat :=
  tokenAfter 1 m.registrations

theorem registrations_unpinned (m : Manifest) : ∀ r ∈ m.registrations, r.id = none := by
  intro r hr
  obtain ⟨p, -, rfl⟩ := List.mem_map.1 hr
  rfl

def tokensOfRun (m : Manifest) : Renaming :=
  .moveToFront m.lastToken

theorem lastToken_pos (m : Manifest) : 1 ≤ m.lastToken :=
  le_tokenAfter m.registrations_unpinned 1

/-- The records of every registration are those of the check under the tokens of the run. -/
theorem recordsFrom_two (m : Manifest) :
    recordsFrom 2 m.registrations = m.records.map (List.map m.tokensOfRun.onRecord) :=
  recordsFrom_succ m.registrations_unpinned 1 fun _ => Renaming.token_before

end Manifest

namespace CommandLine

def checkedStore (m : Manifest) : Store :=
  (Store.empty 1).enrol m.registrations

def submittedStore (m : Manifest) : Store :=
  (Store.empty 2).enrol m.registrations

def checkReconciler (m : Manifest) : Reconciler :=
  ⟨.builtin (.generated m.lastToken)⟩

def runReconciler : Reconciler :=
  ⟨.builtin (.generated 1)⟩

def checkResolution (c : Config) (m : Manifest) : Resolution :=
  (checkReconciler m).run (checkedStore m).snapshot c.initialRuntime

def runResolution (c : Config) (m : Manifest) : Resolution :=
  runReconciler.run (submittedStore m).snapshot c.initialRuntime

theorem checkStatus_eq (c : Config) (m : Manifest) :
    checkStatus c m = .ofResolution (checkResolution c m) (checkResolution c m).changeCount 1 := by
  have hlast : (checkedStore m).nextToken = m.lastToken :=
    congrArg Store.nextToken (Store.enrol_eq _ _)
  unfold checkResolution checkReconciler
  rw [← hlast]
  rfl

theorem submitted_eq (c : Config) (m : Manifest) : submitted c m =
    { Workbench.start c.initialRuntime MemoryContainer.empty with store := submittedStore m } := by
  have hfold (w : Workbench MemoryContainer) (rs : List Registration) :
      rs.foldl (fun w r => (w.mutate (.register r)).1) w =
        { w with store := w.store.enrol rs } := by
    induction rs generalizing w with
    | nil => rfl
    | cons r rs ih => exact ih _
  exact hfold _ _

theorem runStatus_eq (c : Config) (m : Manifest) :
    runStatus c m = .ofResolution (runResolution c m) (runResolution c m).changeCount 1 := by
  rw [runStatus, submitted_eq]
  rfl

theorem submittedStore_snapshot (m : Manifest) :
    (submittedStore m).snapshot = m.tokensOfRun.onSnapshot (checkedStore m).snapshot := by
  rw [submittedStore, checkedStore, Store.enrol_eq, Store.enrol_eq,
    Renaming.onSnapshot_afterGroups]
  exact congrArg (Snapshot.afterGroups .empty) m.recordsFrom_two

theorem runReconciler_builtin (m : Manifest) :
    runReconciler.builtin = m.tokensOfRun.onApplication (checkReconciler m).builtin := by
  have hlast : m.tokensOfRun.onId (.generated m.lastToken) = .generated 1 :=
    congrArg ProviderId.generated (Renaming.token_last m.lastToken_pos)
  rw [checkReconciler, Application.builtin, Renaming.onApplication_ofProperties, hlast]
  rfl

/-- A stored record comes from a registration, and its token from before the last one. -/
theorem stored_issued {m : Manifest} {e : Stored Record}
    (h : e ∈ (checkedStore m).snapshot.entries) :
    e.record ∈ m.records.flatten ∧ Manifest.Issued 1 m.lastToken e.record := by
  rw [checkedStore, Store.enrol_eq] at h
  have hmem : e.record ∈ m.records.flatten := by
    rcases Snapshot.mem_afterGroups h with h | h
    · cases h
    · exact h
  exact ⟨hmem, Manifest.recordsFrom_issued m.registrations_unpinned 1 e.record hmem⟩

theorem checkReconciler_fits (m : Manifest) :
    (checkReconciler m).Fits (checkedStore m).snapshot := by
  refine ⟨Store.enrol_keyed 1 _, ?_⟩
  intro e he hkey
  have hid : e.record.id = .generated m.lastToken := congrArg Key.id hkey
  have := (stored_issued he).2.token _ hid
  omega

theorem runReconciler_fits (m : Manifest) : runReconciler.Fits (submittedStore m).snapshot :=
  (checkReconciler_fits m).renamed (runReconciler_builtin m) (submittedStore_snapshot m)

structure Enters (m : Manifest) (runtime : Properties) (r : Record) : Prop where
  listed : r ∈ m.records.flatten
  issued : Manifest.Issued 1 m.lastToken r
  sound : r.fault = none
  suits : r.profile.suits runtime = true

def contenders (m : Manifest) (runtime : Properties) : List (Stored Record) :=
  Pass.sound (Pass.candidates (checkReconciler m).builtin (checkedStore m).snapshot) runtime

theorem contender_cases {m : Manifest} {runtime : Properties} {e : Stored Record}
    (h : e ∈ contenders m runtime) :
    Enters m runtime e.record ∨
      e.record = .application (.builtin (.generated m.lastToken)) := by
  obtain ⟨he, hs⟩ := List.mem_filter.1 h
  obtain ⟨hfault, hsuits⟩ := Bool.and_eq_true_iff.1 hs
  rcases List.mem_append.1 he with he | he
  · obtain ⟨hmem, hissued⟩ := stored_issued he
    exact Or.inl ⟨hmem, hissued, Option.isNone_iff_eq_none.1 hfault, hsuits⟩
  · exact Or.inr (congrArg Stored.record (List.mem_singleton.1 he))

/-- The tokens of a run decide nothing that is reported: whoever wins in a check stays ahead of
those who lose to it, and failed content is let go last for the same class of reason. -/
structure Predictable (m : Manifest) (runtime : Properties) : Prop where
  paths : Pass.KeepsWinners m.tokensOfRun .path
    ((checkReconciler m).pools (checkedStore m).snapshot runtime).admitted
  defaults : Pass.KeepsWinners m.tokensOfRun .default
    ((checkReconciler m).pools (checkedStore m).snapshot runtime).afterName
  reasons : ((checkReconciler m).field (checkedStore m).snapshot runtime).KeepsReasons m.tokensOfRun
    runtime

section Order

variable {m : Manifest} {runtime : Properties} {e d : Stored Record}

theorem contender_declared (he : e ∈ contenders m runtime) : e.record.Declared := by
  rcases contender_cases he with he | he
  · exact he.issued.declared
  · exact he ▸ Application.builtin_declared (.generated m.lastToken)

theorem contender_sound (he : e ∈ contenders m runtime) : e.record.fault = none :=
  Option.isNone_iff_eq_none.1 (Bool.and_eq_true_iff.1 (List.mem_filter.1 he).2).1

theorem Enters.token_eq {r : Record} (hr : Enters m runtime r) {t : Nat}
    (hid : r.id = .generated t) : m.tokensOfRun.token t = t + 1 := by
  obtain ⟨hpos, hlt⟩ := hr.issued.token t hid
  exact Renaming.token_before hpos hlt

theorem compare_token_eq {a b : Record} (ha : Enters m runtime a) (hb : Enters m runtime b)
    {t u : Nat} (ht : a.id = .generated t) (hu : b.id = .generated u) :
    compare (m.tokensOfRun.token t) (m.tokensOfRun.token u) = compare t u := by
  rw [ha.token_eq ht, hb.token_eq hu]
  simp [compare, compareOfLessAndEq]

theorem contenders_keepNames (m : Manifest) (runtime : Properties) :
    Pass.KeepsNames m.tokensOfRun (contenders m runtime) := by
  refine Pass.keepsNames (fun e he => contender_declared he) (fun e he => contender_sound he) ?_
  intro e he d hd t u ht hu hge hgd
  rcases contender_cases he with he | he
  · rcases contender_cases hd with hd | hd
    · exact compare_token_eq he hd ht hu
    · rw [hd] at hgd
      cases hgd
  · rw [he] at hge
    cases hge

theorem contender_isDefault (he : e ∈ contenders m runtime)
    (hname : e.record.name = Keys.defaultName) :
    e.record.isDefault = true :=
  ((contender_declared he).isDefault_iff (contender_sound he)).2 hname

def IsBuiltin (m : Manifest) (r : Record) : Prop :=
  r = .application (.builtin (.generated m.lastToken))

theorem IsBuiltin.not_nameGenerated {r : Record} (h : IsBuiltin m r) :
    r.profile.nameGenerated = false := by
  rw [h]
  rfl

theorem Enters.name_later {r : Record} (hr : Enters m runtime r) {t : Nat}
    (hid : r.id = .generated t) (hg : r.profile.nameGenerated = true) :
    (m.tokensOfRun.onRecord r).name = Profile.generatedName r.kind (.generated (t + 1)) := by
  have hnext : m.tokensOfRun.onId r.id = .generated (t + 1) := by
    rw [hid]
    exact congrArg ProviderId.generated (hr.token_eq hid)
  rw [Renaming.name_of_generated hg, hnext]

/-- Which of two contenders is ahead depends on the tokens only if they are ranked alike; and then
they are the built-in default application and another default one, or two providers without a given
name, whose generated names stand the other way round with the next tokens. -/
theorem swaps_cases (he : e ∈ contenders m runtime) (hd : d ∈ contenders m runtime)
    (h : Pass.Swaps m.tokensOfRun e.record d.record) :
    ∃ t u, e.record.id = .generated t ∧ d.record.id = .generated u ∧
      e.record.profile.priority = d.record.profile.priority ∧
      (e.record.isDefault = true ∧ d.record.isDefault = true ∧
          (IsBuiltin m e.record ∨ IsBuiltin m d.record) ∨
        e.record.profile.nameGenerated = true ∧ d.record.profile.nameGenerated = true ∧
          compare (Profile.generatedName e.record.kind (.generated (t + 1)))
              (Profile.generatedName d.record.kind (.generated (u + 1))) ≠
            compare e.record.name d.record.name) := by
  obtain ⟨t, u, ht, hu, hpriority, hcases⟩ := h.cases (contender_declared he)
    (contender_declared hd) (contender_sound he) (contender_sound hd)
  refine ⟨t, u, ht, hu, hpriority, ?_⟩
  rcases hcases with ⟨hname, htokens⟩ | ⟨hge, hgd, hnames⟩
  · left
    have hbuiltin : IsBuiltin m e.record ∨ IsBuiltin m d.record := by
      rcases contender_cases he with hee | hbe
      · rcases contender_cases hd with hed | hbd
        · exact absurd (compare_token_eq hee hed ht hu) htokens
        · exact Or.inr hbd
      · exact Or.inl hbe
    have hdefault : e.record.name = Keys.defaultName := by
      rcases hbuiltin with hb | hb
      · rw [hb]
        rfl
      · rw [hname, hb]
        rfl
    exact ⟨contender_isDefault he hdefault, contender_isDefault hd (hname ▸ hdefault), hbuiltin⟩
  · right
    have hgiven {r : Record} (hg : r.profile.nameGenerated = true) : ¬ IsBuiltin m r := fun hb =>
      Bool.noConfusion (hb.not_nameGenerated.symm.trans hg)
    have hee := (contender_cases he).resolve_right (hgiven hge)
    have hed := (contender_cases hd).resolve_right (hgiven hgd)
    rw [hee.name_later ht hge, hed.name_later hu hgd] at hnames
    exact ⟨hge, hgd, hnames⟩

end Order

/-- What a check prints is what a run comes to, under the tokens that each registration and the
built-in default application have there. -/
structure Foretells (ρ : Renaming) (c : Config) (m : Manifest) : Prop where
  /-- Every registration leads to the same records. -/
  records : Manifest.recordsFrom 2 m.registrations = m.records.map (List.map ρ.onRecord)
  builtin : runReconciler.builtin = ρ.onApplication (checkReconciler m).builtin
  checked : checkStatus c m =
    .ofResolution (checkResolution c m) (checkResolution c m).changeCount 1
  ran : runStatus c m = .ofResolution (runResolution c m) (runResolution c m).changeCount 1
  outcome : (checkResolution c m).Mirrors ρ (runResolution c m)

theorem check_foretells_run (c : Config) (m : Manifest) (h : Predictable m c.initialRuntime) :
    Foretells m.tokensOfRun c m where
  records := m.recordsFrom_two
  builtin := runReconciler_builtin m
  checked := checkStatus_eq c m
  ran := runStatus_eq c m
  outcome := Reconciler.Parallel.run
    { fits := checkReconciler_fits m
      builtin := runReconciler_builtin m
      snapshot := submittedStore_snapshot m
      names := contenders_keepNames m c.initialRuntime
      paths := h.paths
      defaults := h.defaults
      reasons := h.reasons }

section Evaluation

variable {r : Reconciler} {s : Snapshot} {runtime : Properties}

theorem admitted_eq_of_fits (h : r.Fits s) : Pass.admitted (Pass.candidates r.builtin s) runtime =
    (Pass.sound (Pass.candidates r.builtin s) runtime).insertionSort
      fun a b => (a.record.compare b.record).isLE = true :=
  Pass.sortPool_eq_insertionSort (h.candidates_nodup.sublist (List.filter_sublist.map _))

theorem verdicts_eq_of_fits (h : r.Fits s) : r.verdicts s runtime =
    (Pass.Field.ofPool <| Pass.afterRule .default <| Pass.afterRule .name <| Pass.afterRule .path <|
      (Pass.sound (Pass.candidates r.builtin s) runtime).insertionSort
        fun a b => (a.record.compare b.record).isLE = true).verdicts runtime := by
  rw [← admitted_eq_of_fits h]
  rfl

end Evaluation

def stall (base trade : String) : Properties :=
  .ofList [(Keys.applicationBase, .text base), ("trade", .text trade)]

def market : Manifest :=
  ⟨List.replicate 8 .empty ++ [stall "/orchard" "fruit", stall "/harbour" "fish",
    .ofList [(Keys.resource, .flag true)]]⟩

theorem market_predictable : Predictable market Config.default.initialRuntime := by
  have hfits := checkReconciler_fits market
  refine ⟨?_, ?_, Pass.Field.keepsReasons_of_agree ?_⟩
  · change Pass.KeepsWinners _ _ (Pass.admitted _ _)
    rw [Pass.KeepsWinners, admitted_eq_of_fits hfits]
    decide +kernel
  · change Pass.KeepsWinners _ _ (Pass.afterRule .name (Pass.afterRule .path (Pass.admitted _ _)))
    rw [Pass.KeepsWinners, admitted_eq_of_fits hfits]
    decide +kernel
  · change ∀ v ∈ (checkReconciler market).verdicts (checkedStore market).snapshot _,
      ∀ c ∈ v.members,
        (∀ u ∈ (checkReconciler market).verdicts (checkedStore market).snapshot _, c ∉ u.kept) →
        ∀ w ∈ (checkReconciler market).verdicts (checkedStore market).snapshot _, c ∈ w.members →
          w.lossOf c = v.lossOf c
    rw [verdicts_eq_of_fits hfits]
    decide +kernel

theorem market_foretold : Predictable market Config.default.initialRuntime ∧
    Foretells market.tokensOfRun .default market ∧
    ∃ a ∈ contenders market Config.default.initialRuntime,
      ∃ b ∈ contenders market Config.default.initialRuntime,
        Pass.Swaps market.tokensOfRun a.record b.record :=
  ⟨market_predictable, check_foretells_run .default market market_predictable, by decide +kernel⟩

/-- An application that a check accepts and a run does not is not foretold. -/
theorem not_foretells {c : Config} {m : Manifest} {p : Properties}
    (hcheck : ∃ v ∈ (checkReconciler m).verdicts (checkedStore m).snapshot c.initialRuntime,
      ∃ a ∈ v.accepted?, a.application.record.profile.properties = p)
    (hrun : ∀ v ∈ runReconciler.verdicts (submittedStore m).snapshot c.initialRuntime,
      ∀ a ∈ v.accepted?, a.application.record.profile.properties ≠ p) (ρ : Renaming) :
    ¬ Foretells ρ c m := by
  intro h
  obtain ⟨v, hv, a, ha, hp⟩ := hcheck
  obtain ⟨b, hb, hab⟩ := exists_of_forall₂ h.outcome.applications a
    (Reconciler.mem_applications.2 ⟨v, hv, ha⟩)
  obtain ⟨w, hw, hwb⟩ := Reconciler.mem_applications.1 hb
  refine hrun w hw b hwb ?_
  rw [hab.application, ← hp]
  rfl

def lowestDefault : Properties :=
  .ofList [(Keys.name, .text Keys.defaultName), (Keys.applicationBase, .text "/shop"),
    (Keys.serviceRanking, .integer Int32.minValue.toInt64)]

/-- Two stalls at one path. The second one has the first token of two digits in a check, but the
first one has it in a run. -/
def crowd : Manifest :=
  ⟨List.replicate 8 .empty ++ [stall "/stall" "fruit", stall "/stall" "fish"]⟩

/-- A failure that a check reports for a reason of which a run knows nothing is not foretold. -/
theorem not_foretells_of_failure {c : Config} {m : Manifest} (p : Properties) (kind : Kind)
    (reason : Reason)
    (hcheck : ∃ f ∈ (checkResolution c m).failures kind, f.record.profile.properties = p ∧
      f.cause.reason = reason)
    (hrun : ∀ f ∈ (runResolution c m).failures kind, f.record.profile.properties = p →
      f.cause.reason ≠ reason) (ρ : Renaming) : ¬ Foretells ρ c m := by
  intro h
  obtain ⟨f, hf, hp, hreason⟩ := hcheck
  have hmem : ρ.gist f ∈ ((runResolution c m).failures kind).map Failure.gist :=
    (h.outcome.failures kind).mem_iff.2 (List.mem_map_of_mem hf)
  obtain ⟨g, hg, hgist⟩ := List.mem_map.1 hmem
  have hrecord : g.record = ρ.onRecord f.record := congrArg Prod.fst hgist
  refine hrun g hg ?_ ((congrArg Prod.snd hgist).trans hreason)
  rw [hrecord, ← hp]
  cases f.record <;> rfl

def quarry : Properties :=
  .ofList [(Keys.applicationBase, .text "/quarry"), ("stone", .text "granite"),
    (Keys.extensionSelect, .text "(guard=*)")]

def yard : Properties :=
  .ofList [(Keys.applicationBase, .text "/yard"), ("stone", .text "slate")]

def statue : Properties :=
  .ofList [(Keys.serviceId, .integer 1), (Keys.resource, .flag true),
    (Keys.applicationSelect, .text "(stone=*)"), (Keys.extensionSelect, .text "(stone=granite)")]

/-- The statue is let go by quarry and yard, which change places. -/
def masonry : Manifest :=
  ⟨List.replicate 8 .empty ++ [quarry, yard, statue]⟩

def statueContent : Stored Content := ⟨3, .ofProperties .resource (.registered 1) statue none⟩

def quarryVerdict (token : Nat) : Pass.Verdict :=
  ⟨⟨1, .ofProperties (.generated token) quarry⟩, [statueContent],
    ⟨(Application.ofProperties (.generated 0) quarry).profile.requires.head?, []⟩⟩

def yardVerdict (token : Nat) : Pass.Verdict :=
  ⟨⟨2, .ofProperties (.generated token) yard⟩, [statueContent],
    ⟨none, statueContent.record.profile.requires.head?.toList.map fun sel => (0, sel)⟩⟩

def builtinVerdict (token : Nat) : Pass.Verdict :=
  ⟨⟨0, .builtin (.generated token)⟩, [], .intact⟩

theorem quarry_judged (token : Nat) :
    Pass.judge Config.default.initialRuntime (quarryVerdict token).application [statueContent] =
      quarryVerdict token := by
  have houtcome : (Pass.judge Config.default.initialRuntime (quarryVerdict 0).application
      [statueContent]).outcome = (quarryVerdict 0).outcome := by
    rw [Pass.judge_outcome, (Site.check_eq_resolve _).1]
    exact Graph.resolve_pair _ none (by decide +kernel) (by decide +kernel) (by decide +kernel)
      (by decide +kernel)
  exact congrArg (Pass.Verdict.mk _ _) houtcome

theorem yard_judged (token : Nat) :
    Pass.judge Config.default.initialRuntime (yardVerdict token).application [statueContent] =
      yardVerdict token := by
  have houtcome : (Pass.judge Config.default.initialRuntime (yardVerdict 0).application
      [statueContent]).outcome = (yardVerdict 0).outcome := by
    rw [Pass.judge_outcome, (Site.check_eq_resolve _).1]
    exact Graph.resolve_pair _ _ (by decide +kernel) (by decide +kernel) (by decide +kernel)
      (by decide +kernel)
  exact congrArg (Pass.Verdict.mk _ _) houtcome

theorem builtin_judged (token : Nat) :
    Pass.judge Config.default.initialRuntime (builtinVerdict token).application [] =
      builtinVerdict token := by
  have houtcome : (Pass.judge Config.default.initialRuntime (builtinVerdict 0).application
      []).outcome = (builtinVerdict 0).outcome := by
    decide +kernel
  exact congrArg (Pass.Verdict.mk _ _) houtcome

/-- The generated name of the tenth token comes before that of the ninth. -/
theorem masonry_checked : (checkReconciler masonry).verdicts (checkedStore masonry).snapshot
    Config.default.initialRuntime =
    [yardVerdict 10, quarryVerdict 9, builtinVerdict 11] := by
  have hmembers : ((checkReconciler masonry).verdicts (checkedStore masonry).snapshot
    Config.default.initialRuntime).map
      (fun v => (v.application, v.members)) =
        [((yardVerdict 10).application, [statueContent]),
          ((quarryVerdict 9).application, [statueContent]),
          ((builtinVerdict 11).application, [])] := by
    rw [verdicts_eq_of_fits (checkReconciler_fits masonry)]
    decide +kernel
  rw [Reconciler.verdicts_eq_judge, hmembers, ← quarry_judged, ← yard_judged, ← builtin_judged]
  rfl

theorem masonry_run : runReconciler.verdicts (submittedStore masonry).snapshot
    Config.default.initialRuntime =
    [quarryVerdict 10, yardVerdict 11, builtinVerdict 1] := by
  have hmembers : (runReconciler.verdicts (submittedStore masonry).snapshot
    Config.default.initialRuntime).map
      (fun v => (v.application, v.members)) =
        [((quarryVerdict 10).application, [statueContent]),
          ((yardVerdict 11).application, [statueContent]),
          ((builtinVerdict 1).application, [])] := by
    rw [verdicts_eq_of_fits (runReconciler_fits masonry)]
    decide +kernel
  rw [Reconciler.verdicts_eq_judge, hmembers, ← quarry_judged, ← yard_judged, ← builtin_judged]
  rfl

theorem statue_checked : ∃ f ∈ (checkResolution .default masonry).failures .resource,
    f.record.profile.properties = statue ∧ f.cause.reason = .requiredApplicationUnavailable := by
  simp only [checkResolution, Reconciler.failures_eq, Pass.sortFailures, List.mem_mergeSort,
    Reconciler.reported, masonry_checked, Reconciler.field, Pass.pools,
    admitted_eq_of_fits (checkReconciler_fits masonry)]
  decide +kernel

theorem statue_run : ∀ f ∈ (runResolution .default masonry).failures .resource,
    f.record.profile.properties = statue → f.cause.reason ≠ .requiredApplicationUnavailable := by
  simp only [runResolution, Reconciler.failures_eq, Pass.sortFailures, List.mem_mergeSort,
    Reconciler.reported, masonry_run, Reconciler.field, Pass.pools,
    admitted_eq_of_fits (runReconciler_fits masonry)]
  decide +kernel

/-- Other tokens may change the outcome. A default application may be told from the built-in one by
its token alone, and generated names are compared as texts, in which ten comes before nine; so
another application may win a path, or be the last one to let content go. -/
theorem not_every_manifest_foretold :
    (¬ ∃ ρ, Foretells ρ .default ⟨[lowestDefault]⟩) ∧ (¬ ∃ ρ, Foretells ρ .default crowd) ∧
      ¬ ∃ ρ, Foretells ρ .default masonry := by
  refine ⟨?_, ?_, ?_⟩
  · rintro ⟨ρ, h⟩
    refine not_foretells (p := lowestDefault) ?_ ?_ ρ h
    · rw [verdicts_eq_of_fits (checkReconciler_fits _)]
      decide +kernel
    · rw [verdicts_eq_of_fits (runReconciler_fits _)]
      decide +kernel
  · rintro ⟨ρ, h⟩
    refine not_foretells (p := stall "/stall" "fish") ?_ ?_ ρ h
    · rw [verdicts_eq_of_fits (checkReconciler_fits _)]
      decide +kernel
    · rw [verdicts_eq_of_fits (runReconciler_fits _)]
      decide +kernel
  · rintro ⟨ρ, h⟩
    exact not_foretells_of_failure statue .resource _ statue_checked statue_run ρ h

end CommandLine

end Reconciliation
