import Mathlib.Data.List.Nodup
import Mathlib.Data.List.TakeWhile
import Reconciliation.Provider.Content

/-! # The status of content

What keeps content from being deployed by itself is found in a fixed order. The rules below say this
without a look at how providers are built.
-/
namespace Reconciliation

/-- What a type name ends in. Neither a point nor a colon is in the simple name, and one of them
stands before it, unless nothing does. -/
def IsSimpleName (name typeName : String) : Prop :=
  ∃ qualifier, Text.trimChars typeName.toList = qualifier ++ name.toList ∧
    (∀ c ∈ name.toList, c ≠ '.' ∧ c ≠ ':') ∧ ∀ c ∈ qualifier.getLast?, c = '.' ∨ c = ':'

theorem simpleName_eq_iff {name typeName : String} :
    simpleName typeName = name ↔ IsSimpleName name typeName := by
  have hplain : ∀ c : Char, (c != '.' && c != ':') = true ↔ c ≠ '.' ∧ c ≠ ':' := by simp
  constructor
  · rintro rfl
    refine ⟨((Text.trimChars typeName.toList).reverse.dropWhile
      fun c => c != '.' && c != ':').reverse, ?_, ?_, ?_⟩
    · rw [simpleName, String.toList_ofList, simpleNameChars, ← List.reverse_append,
        List.takeWhile_append_dropWhile, List.reverse_reverse]
    · intro c hc
      rw [simpleName, String.toList_ofList, simpleNameChars, List.mem_reverse] at hc
      have htake := List.mem_takeWhile_imp hc
      exact (hplain c).1 htake
    · intro c hc
      have hhead := List.head?_dropWhile_not (fun c => c != '.' && c != ':')
        (Text.trimChars typeName.toList).reverse
      rw [List.getLast?_reverse] at hc
      rw [Option.mem_def.1 hc] at hhead
      simpa [or_iff_not_imp_left] using hhead
  · rintro ⟨qualifier, htrim, hname, hqualifier⟩
    have hbefore : qualifier.reverse.takeWhile (fun c => c != '.' && c != ':') = [] := by
      rw [← List.head?_reverse] at hqualifier
      cases hr : qualifier.reverse with
      | nil => rfl
      | cons c cs =>
        rw [hr] at hqualifier
        apply List.takeWhile_cons_of_neg
        rw [hplain]
        rintro ⟨hpoint, hcolon⟩
        exact (hqualifier c rfl).elim hpoint hcolon
    have htake : ∀ c ∈ name.toList.reverse, (c != '.' && c != ':') = true :=
      fun c hc => (hplain c).2 (hname c (List.mem_reverse.1 hc))
    rw [simpleName, simpleNameChars, htrim, List.reverse_append,
      List.takeWhile_append_of_pos htake, hbefore, List.append_nil, List.reverse_reverse,
      String.ofList_toList]

namespace Contract

theorem mem_all (t : Contract) : t ∈ all := by
  cases t <;> decide

theorem simpleName_name (t : Contract) : simpleName t.name = t.name := by
  cases t <;> decide +kernel

theorem name_injective {t u : Contract} (h : t.name = u.name) : t = u := by
  have hnodup : (all.map name).Nodup := by decide +kernel
  exact List.inj_on_of_nodup_map hnodup t.mem_all u.mem_all h

theorem ofTypeName?_eq_some_iff {typeName : String} {t : Contract} :
    ofTypeName? typeName = some t ↔ IsSimpleName t.name typeName := by
  rw [← simpleName_eq_iff, ofTypeName?]
  constructor
  · intro h
    have hname := List.find?_some h
    exact (beq_iff_eq.1 hname).symm
  · intro h
    rw [h]
    cases hfound : all.find? fun c => c.name == t.name with
    | none => exact absurd (beq_self_eq_true t.name) (List.find?_eq_none.1 hfound t t.mem_all)
    | some u =>
      have hname := List.find?_some hfound
      rw [name_injective (beq_iff_eq.1 hname)]

end Contract

inductive Check where
  | name
  | target
  | requirements
  | select
  | scope
  deriving DecidableEq, Repr

namespace Check

def all : List Check :=
  [name, target, requirements, select, scope]

/-- Which properties a check fails on, and with what detail. Of several requirements the first one
that cannot be read gives the detail. -/
inductive Fails (p : Properties) : Check → String → Prop where
  | reserved {v : Value} (hv : p.get? "whiteboard.name" = some v)
      (h : v.display.toList.head? = some '.') :
      Fails p name s!"name '{v.display}' uses the reserved prefix"
  | nameless {v : Value} (hv : p.get? "whiteboard.name" = some v) (h : v.display = "") :
      Fails p name "empty name"
  | target {v : Value} {e : SelectorError} (hv : p.get? "whiteboard.target" = some v)
      (h : Selector.parse v.display = .error e) :
      Fails p target s!"whiteboard.target: {e.message}"
  | requirement {v : Value} {before after : List String} {raw : String} {e : SelectorError}
      (hv : p.get? "whiteboard.extension.select" = some v) (hs : v.strings = before ++ raw :: after)
      (hbefore : ∀ other ∈ before, ∃ s, Selector.parse other = .ok s)
      (h : Selector.parse raw = .error e) :
      Fails p requirements s!"whiteboard.extension.select: {e.message}"
  | select {v : Value} {e : SelectorError} (hv : p.get? "whiteboard.application.select" = some v)
      (h : Selector.parse v.display = .error e) :
      Fails p select s!"whiteboard.application.select: {e.message}"
  | scope {v : Value} (hv : p.get? "service.scope" = some v)
      (h : ∀ s : Scope, Text.sameLetters (Text.trim v.display) s.text = false) :
      Fails p scope s!"service.scope: unknown scope '{v.display}'"

/-- The properties fail on a check with this detail, and on none before it. -/
def FailsFirst (p : Properties) (detail : String) : Prop :=
  ∃ before check after, all = before ++ check :: after ∧ Fails p check detail ∧
    ∀ earlier ∈ before, ∀ d, ¬ Fails p earlier d

end Check

namespace Content

def publishedTypes (p : Properties) : List String :=
  ((p.get? "objectClass").map Value.strings).getD []

/-- The class that is known of the object: the one that its source hands out or, without a source,
what is published. -/
inductive Obtains (p : Properties) : Option ObjectSource → ObjectClass → Prop where
  | leased {source : ObjectSource} {k : ObjectClass} (h : source.classOf = some k) :
      Obtains p (some source) k
  | published : Obtains p none ⟨(publishedTypes p).head?.getD "", publishedTypes p⟩

/-- The contract is among the published types, and the class is of that type or implements it. -/
def Supports (p : Properties) (k : ObjectClass) (t : Contract) : Prop :=
  (∃ typeName ∈ publishedTypes p, IsSimpleName t.name typeName) ∧
    (IsSimpleName t.name k.typeName ∨ ∃ i ∈ k.interfaces, IsSimpleName t.name i)

inductive Standing (kind : ContentKind) (p : Properties) (source : Option ObjectSource) :
    Option Reason → Prop where
  | invalid {check : Check} {detail : String} (h : check.Fails p detail) :
      Standing kind p source (some .validationFailed)
  | unobtainable (hvalid : ∀ (check : Check) d, ¬ check.Fails p d)
      (h : ∀ k, ¬ Obtains p source k) : Standing kind p source (some .serviceNotGettable)
  | noContract {k : ObjectClass} (hvalid : ∀ (check : Check) d, ¬ check.Fails p d)
      (hk : Obtains p source k) (hkind : kind = .extension) (h : ∀ t, ¬ Supports p k t) :
      Standing kind p source (some .notAnExtensionType)
  | sound {k : ObjectClass} (hvalid : ∀ (check : Check) d, ¬ check.Fails p d)
      (hk : Obtains p source k) (h : kind = .extension → ∃ t, Supports p k t) :
      Standing kind p source none

end Content

namespace Profile

theorem nameFault_eq_some_iff {name : String} {cause : Cause} :
    nameFault false name = some cause ↔
      name.toList.head? = some '.' ∧ cause = .reservedName name ∨
        name = "" ∧ cause = .emptyName := by
  have hreserved : (startsReserved name && !(false && name == Keys.defaultName)) = true ↔
      name.toList.head? = some '.' := by
    simp [startsReserved, Keys.reservedMark]
  have hempty : name.isEmpty = true ↔ name = "" := String.isEmpty_iff
  unfold nameFault
  split
  · rename_i h
    have hhead := hreserved.1 h
    have hne : name ≠ "" := by
      rintro rfl
      cases hhead
    simp [hhead, hne, eq_comm]
  · rename_i h
    have hhead := mt hreserved.2 h
    split
    · rename_i h
      simp [hempty.1 h, eq_comm]
    · rename_i h
      simp [hhead, mt hempty.2 h]

theorem faultOf_readSelector_eq_some_iff {key raw : String} {cause : Cause} :
    faultOf (readSelector key raw) = some cause ↔
      ∃ e, Selector.parse raw = .error e ∧ cause = .badSelector key e := by
  unfold readSelector
  cases Selector.parse raw with
  | ok s => simp [Except.mapError, faultOf]
  | error e => simp [Except.mapError, faultOf, eq_comm]

theorem faultOf_readSelector_eq_none_iff {key raw : String} :
    faultOf (readSelector key raw) = none ↔ ∃ s, Selector.parse raw = .ok s := by
  unfold readSelector
  cases Selector.parse raw with
  | ok s => simp [Except.mapError, faultOf]
  | error e => simp [Except.mapError, faultOf]

theorem selectorAt?_fault_eq_some_iff {p : Properties} {key : String} {cause : Cause} :
    (selectorAt? p key).bind faultOf = some cause ↔
      ∃ v e, p.get? key = some v ∧ Selector.parse v.display = .error e ∧
        cause = .badSelector key e := by
  unfold selectorAt?
  cases p.get? key with
  | none => simp
  | some v => simp [faultOf_readSelector_eq_some_iff]

theorem selectorsAt_fault_eq_some_iff {p : Properties} {key : String} {cause : Cause} :
    (selectorsAt p key).findSome? faultOf = some cause ↔
      ∃ v before raw after e, p.get? key = some v ∧ v.strings = before ++ raw :: after ∧
        (∀ other ∈ before, ∃ s, Selector.parse other = .ok s) ∧
        Selector.parse raw = .error e ∧ cause = .badSelector key e := by
  unfold selectorsAt
  cases p.get? key with
  | none => simp
  | some v =>
    simp only [List.findSome?_map, List.findSome?_eq_some_iff, Function.comp_apply,
      faultOf_readSelector_eq_some_iff, faultOf_readSelector_eq_none_iff, Option.some.injEq]
    constructor
    · rintro ⟨before, raw, after, hs, ⟨e, he, hcause⟩, hbefore⟩
      exact ⟨v, before, raw, after, e, rfl, hs, hbefore, he, hcause⟩
    · rintro ⟨_, before, raw, after, e, rfl, hs, hbefore, he, hcause⟩
      exact ⟨before, raw, after, hs, ⟨e, he, hcause⟩, hbefore⟩

end Profile

theorem Scope.fault_eq_some_iff {p : Properties} {cause : Cause} :
    Profile.faultOf (Scope.ofProperties p) = some cause ↔
      ∃ v, p.get? Keys.serviceScope = some v ∧
        (∀ s : Scope, Text.sameLetters (Text.trim v.display) s.text = false) ∧
        cause = .unknownScope Keys.serviceScope v.display := by
  have hnone : ∀ raw, Scope.ofText? raw = none ↔
      ∀ s : Scope, Text.sameLetters (Text.trim raw) s.text = false := by
    intro raw
    unfold Scope.ofText?
    rw [List.find?_eq_none]
    constructor
    · intro h s
      have hmem : s ∈ [Scope.singleton, .bundle, .prototype] := by cases s <;> decide
      simpa using h s hmem
    · intro h s _
      simp [h s]
  unfold Scope.ofProperties
  cases p.get? Keys.serviceScope with
  | none => simp [Profile.faultOf]
  | some v =>
    simp only [Option.some.injEq, exists_eq_left', ← hnone]
    cases Scope.ofText? v.display with
    | none => simp [Profile.faultOf, eq_comm]
    | some s => simp [Profile.faultOf]

namespace Check

def cause? (p : Properties) : Check → Option Cause
  | name => ((p.get? Keys.name).map Value.display).bind (Profile.nameFault false)
  | target => (Profile.selectorAt? p Keys.target).bind Profile.faultOf
  | requirements => (Profile.selectorsAt p Keys.extensionSelect).findSome? Profile.faultOf
  | select => (Profile.selectorAt? p Keys.applicationSelect).bind Profile.faultOf
  | scope => Profile.faultOf (Scope.ofProperties p)

theorem fault_eq_findSome? (kind : ContentKind) (id : ProviderId) (p : Properties)
    (source : Option ObjectSource) :
    (Content.ofProperties kind id p source).profile.fault = all.findSome? (cause? p) := by
  have hkind : (kind.kind == .application) = false := by cases kind <;> rfl
  have hprofile : (Profile.ofProperties id kind.kind p).fault =
      (cause? p name).or ((cause? p target).or (cause? p requirements)) := by
    simp only [Profile.ofProperties, hkind, cause?]
  have hcontent : (Content.ofProperties kind id p source).profile.fault =
      (Profile.ofProperties id kind.kind p).fault.or ((cause? p select).or (cause? p scope)) := rfl
  simp only [hcontent, hprofile, all, List.findSome?_cons, List.findSome?_nil]
  cases cause? p name <;> cases cause? p target <;> cases cause? p requirements <;>
    cases cause? p select <;> cases cause? p scope <;> rfl

theorem fails_iff {p : Properties} {check : Check} {detail : String} :
    check.Fails p detail ↔ ∃ cause, check.cause? p = some cause ∧ cause.detail = detail := by
  have hname : ∀ {cause : Cause}, cause? p name = some cause ↔
      ∃ v, p.get? Keys.name = some v ∧ (v.display.toList.head? = some '.' ∧
        cause = .reservedName v.display ∨ v.display = "" ∧ cause = .emptyName) := by
    intro cause
    simp only [cause?, Option.bind_eq_some_iff, Option.map_eq_some_iff,
      Profile.nameFault_eq_some_iff, exists_exists_and_eq_and]
  constructor
  · intro h
    cases h with
    | reserved hv h => exact ⟨_, hname.2 ⟨_, hv, Or.inl ⟨h, rfl⟩⟩, rfl⟩
    | nameless hv h => exact ⟨_, hname.2 ⟨_, hv, Or.inr ⟨h, rfl⟩⟩, rfl⟩
    | target hv h =>
      exact ⟨_, Profile.selectorAt?_fault_eq_some_iff.2 ⟨_, _, hv, h, rfl⟩, rfl⟩
    | requirement hv hs hbefore h =>
      exact ⟨_, Profile.selectorsAt_fault_eq_some_iff.2 ⟨_, _, _, _, _, hv, hs, hbefore, h, rfl⟩,
        rfl⟩
    | select hv h =>
      exact ⟨_, Profile.selectorAt?_fault_eq_some_iff.2 ⟨_, _, hv, h, rfl⟩, rfl⟩
    | scope hv h => exact ⟨_, Scope.fault_eq_some_iff.2 ⟨_, hv, h, rfl⟩, rfl⟩
  · rintro ⟨cause, h, rfl⟩
    cases check with
    | name =>
      obtain ⟨v, hv, ⟨hhead, rfl⟩ | ⟨hempty, rfl⟩⟩ := hname.1 h
      · exact .reserved hv hhead
      · exact .nameless hv hempty
    | target =>
      obtain ⟨v, e, hv, he, rfl⟩ := Profile.selectorAt?_fault_eq_some_iff.1 h
      exact .target hv he
    | requirements =>
      obtain ⟨v, before, raw, after, e, hv, hs, hbefore, he, rfl⟩ :=
        Profile.selectorsAt_fault_eq_some_iff.1 h
      exact .requirement hv hs hbefore he
    | select =>
      obtain ⟨v, e, hv, he, rfl⟩ := Profile.selectorAt?_fault_eq_some_iff.1 h
      exact .select hv he
    | scope =>
      obtain ⟨v, hv, hs, rfl⟩ := Scope.fault_eq_some_iff.1 h
      exact .scope hv hs

theorem reason_of_cause? {p : Properties} {check : Check} {cause : Cause}
    (h : check.cause? p = some cause) : cause.reason = .validationFailed := by
  cases check with
  | name =>
    obtain ⟨name, -, h⟩ := Option.bind_eq_some_iff.1 h
    obtain ⟨-, rfl⟩ | ⟨-, rfl⟩ := Profile.nameFault_eq_some_iff.1 h <;> rfl
  | target =>
    obtain ⟨_, _, -, -, rfl⟩ := Profile.selectorAt?_fault_eq_some_iff.1 h
    rfl
  | requirements =>
    obtain ⟨_, _, _, _, _, -, -, -, -, rfl⟩ := Profile.selectorsAt_fault_eq_some_iff.1 h
    rfl
  | select =>
    obtain ⟨_, _, -, -, rfl⟩ := Profile.selectorAt?_fault_eq_some_iff.1 h
    rfl
  | scope =>
    obtain ⟨_, -, -, rfl⟩ := Scope.fault_eq_some_iff.1 h
    rfl

theorem cause?_eq_none_iff {p : Properties} {check : Check} :
    check.cause? p = none ↔ ∀ detail, ¬ check.Fails p detail := by
  simp only [fails_iff, not_exists, not_and]
  cases check.cause? p with
  | none => simp
  | some cause => simp

end Check

namespace Content

section

variable (kind : ContentKind) (id : ProviderId) (p : Properties) (source : Option ObjectSource)

theorem published_eq : (ofProperties kind id p source).published = publishedTypes p := by
  have hproperties : (ofProperties kind id p source).profile.properties = p := rfl
  unfold published publishedTypes
  rw [hproperties, Keys.objectClass]
  cases p.get? "objectClass" <;> rfl

theorem objectClass_eq_ok_iff {k : ObjectClass} :
    (ofProperties kind id p source).objectClass = .ok k ↔ Obtains p source k := by
  have hsource : (ofProperties kind id p source).source = source := rfl
  unfold objectClass
  rw [hsource, published_eq]
  cases source with
  | none =>
    constructor
    · rintro ⟨⟩
      exact .published
    · rintro ⟨⟩
      rfl
  | some s =>
    have hleased : Obtains p (some s) k ↔ s.classOf = some k :=
      ⟨fun | .leased h => h, .leased⟩
    rw [hleased]
    dsimp only
    cases s.classOf with
    | none => simp
    | some k' => simp

theorem mem_contracts_iff {t : Contract} :
    t ∈ (ofProperties kind id p source).contracts ↔ ∃ k, Obtains p source k ∧ Supports p k t := by
  have hpublished : ∀ types : List String,
      (types.filterMap Contract.ofTypeName?).contains t = true ↔
        ∃ typeName ∈ types, IsSimpleName t.name typeName := by
    intro types
    simp only [List.contains_iff_mem, List.mem_filterMap, Contract.ofTypeName?_eq_some_iff]
  have himplements : ∀ k : ObjectClass, k.implements t.name = true ↔
      IsSimpleName t.name k.typeName ∨ ∃ i ∈ k.interfaces, IsSimpleName t.name i := by
    intro k
    simp only [ObjectClass.implements, t.simpleName_name, Bool.or_eq_true, List.any_eq_true,
      beq_iff_eq, simpleName_eq_iff]
  simp only [← objectClass_eq_ok_iff kind id]
  unfold contracts
  rw [published_eq]
  cases (ofProperties kind id p source).objectClass with
  | error cause => simp
  | ok k =>
    simp only [List.mem_filter, t.mem_all, true_and, Bool.and_eq_true, hpublished, himplements,
      Except.ok.injEq, exists_eq_left', Supports]

theorem contracts_increasing :
    (ofProperties kind id p source).contracts.Pairwise fun t u => t.ctorIdx < u.ctorIdx := by
  have hall : Contract.all.Pairwise fun t u => t.ctorIdx < u.ctorIdx := by decide
  unfold contracts
  split
  · exact hall.filter _
  · exact .nil

theorem profile_fault_eq_none_iff :
    (ofProperties kind id p source).profile.fault = none ↔
      ∀ (check : Check) d, ¬ check.Fails p d := by
  rw [Check.fault_eq_findSome?, List.findSome?_eq_none_iff]
  constructor
  · intro h check
    have hmem : check ∈ Check.all := by cases check <;> decide
    exact Check.cause?_eq_none_iff.1 (h check hmem)
  · intro h check _
    exact Check.cause?_eq_none_iff.2 (h check)

theorem profile_fault_eq_some_iff {detail : String} :
    (∃ cause, (ofProperties kind id p source).profile.fault = some cause ∧ cause.detail = detail) ↔
      Check.FailsFirst p detail := by
  simp only [Check.fault_eq_findSome?, List.findSome?_eq_some_iff]
  constructor
  · rintro ⟨cause, ⟨before, check, after, hall, hcause, hbefore⟩, hdetail⟩
    exact ⟨before, check, after, hall, Check.fails_iff.2 ⟨cause, hcause, hdetail⟩,
      fun earlier he => Check.cause?_eq_none_iff.1 (hbefore earlier he)⟩
  · rintro ⟨before, check, after, hall, hfails, hbefore⟩
    obtain ⟨cause, hcause, hdetail⟩ := Check.fails_iff.1 hfails
    exact ⟨cause, ⟨before, check, after, hall, hcause,
      fun earlier he => Check.cause?_eq_none_iff.2 (hbefore earlier he)⟩, hdetail⟩

theorem fault_of_profile {cause : Cause}
    (h : (ofProperties kind id p source).profile.fault = some cause) :
    (ofProperties kind id p source).fault = some cause := by
  rw [fault, h, Option.some_or]

theorem fault_of_valid (h : ∀ (check : Check) d, ¬ check.Fails p d) :
    (ofProperties kind id p source).fault =
      (Profile.faultOf (ofProperties kind id p source).objectClass).or
        (if kind = .extension ∧ ∀ t, t ∉ (ofProperties kind id p source).contracts then
          some .noContract else none) := by
  have hkind : (ofProperties kind id p source).kind = kind := rfl
  rw [fault, (profile_fault_eq_none_iff kind id p source).2 h, Option.none_or, hkind]
  congr 2
  rw [Bool.and_eq_true, beq_iff_eq, List.isEmpty_iff, List.eq_nil_iff_forall_not_mem]

theorem standing_status :
    Standing kind p source ((ofProperties kind id p source).fault.map Cause.reason) := by
  cases hprofile : (ofProperties kind id p source).profile.fault with
  | some cause =>
    rw [fault_of_profile kind id p source hprofile]
    rw [Check.fault_eq_findSome?] at hprofile
    obtain ⟨check, -, hcause⟩ := List.exists_of_findSome?_eq_some hprofile
    rw [Option.map_some, Check.reason_of_cause? hcause]
    exact .invalid (Check.fails_iff.2 ⟨cause, hcause, rfl⟩)
  | none =>
    have hvalid := (profile_fault_eq_none_iff kind id p source).1 hprofile
    rw [fault_of_valid kind id p source hvalid]
    cases hclass : (ofProperties kind id p source).objectClass with
    | error cause =>
      have hreason : cause.reason = .serviceNotGettable := by
        unfold objectClass at hclass
        split at hclass
        · split at hclass <;> cases hclass
          rfl
        · cases hclass
      rw [Profile.faultOf, Option.some_or, Option.map_some, hreason]
      refine .unobtainable hvalid fun k hk => ?_
      cases hclass.symm.trans ((objectClass_eq_ok_iff kind id p source).2 hk)
    | ok k =>
      have hk := (objectClass_eq_ok_iff kind id p source).1 hclass
      rw [Profile.faultOf, Option.none_or]
      split
      · rename_i h
        refine .noContract hvalid hk h.1 fun t ht => ?_
        exact h.2 t ((mem_contracts_iff kind id p source).2 ⟨k, hk, ht⟩)
      · rename_i h
        refine .sound hvalid hk fun hkind => ?_
        have hsome := not_and.1 h hkind
        push Not at hsome
        obtain ⟨t, ht⟩ := hsome
        obtain ⟨k', hk', hsupports⟩ := (mem_contracts_iff kind id p source).1 ht
        have hclass' := (objectClass_eq_ok_iff kind id p source).2 hk'
        cases hclass.symm.trans hclass'
        exact ⟨t, hsupports⟩

end

theorem Standing.unique {kind : ContentKind} {p : Properties} {source : Option ObjectSource}
    {s t : Option Reason} (hs : Standing kind p source s) (ht : Standing kind p source t) :
    s = t := by
  have hclass : ∀ {k k'}, Obtains p source k → Obtains p source k' → k = k' := by
    intro k k' hk hk'
    have h := (objectClass_eq_ok_iff kind (.generated 0) p source).2 hk
    have h' := (objectClass_eq_ok_iff kind (.generated 0) p source).2 hk'
    exact Except.ok.inj (h.symm.trans h')
  cases hs with
  | invalid h =>
    cases ht with
    | invalid _ => rfl
    | unobtainable hvalid _ => exact absurd h (hvalid _ _)
    | noContract hvalid _ _ _ => exact absurd h (hvalid _ _)
    | sound hvalid _ _ => exact absurd h (hvalid _ _)
  | unobtainable hvalid hnone =>
    cases ht with
    | invalid h => exact absurd h (hvalid _ _)
    | unobtainable _ _ => rfl
    | noContract _ hk _ _ => exact absurd hk (hnone _)
    | sound _ hk _ => exact absurd hk (hnone _)
  | noContract hvalid hk hkind hnone =>
    cases ht with
    | invalid h => exact absurd h (hvalid _ _)
    | unobtainable _ h => exact absurd hk (h _)
    | noContract _ _ _ _ => rfl
    | sound _ hk' h =>
      obtain ⟨t, hsupports⟩ := h hkind
      cases hclass hk hk'
      exact absurd hsupports (hnone t)
  | sound hvalid hk hsome =>
    cases ht with
    | invalid h => exact absurd h (hvalid _ _)
    | unobtainable _ h => exact absurd hk (h _)
    | noContract _ hk' hkind h =>
      obtain ⟨t, hsupports⟩ := hsome hkind
      cases hclass hk hk'
      exact absurd hsupports (h t)
    | sound _ _ _ => rfl

/-- Content fails for the reason that the rules give and for no other; a validation failure has the
detail of the first check that fails; and the contracts are those that are published and
implemented, each once and in their order. -/
theorem status_by_precedence (kind : ContentKind) (id : ProviderId) (p : Properties)
    (source : Option ObjectSource) :
    let c := ofProperties kind id p source
    (∀ status, c.fault.map Cause.reason = status ↔ Standing kind p source status) ∧
      (∀ detail, (∃ cause, c.fault = some cause ∧ cause.reason = .validationFailed ∧
        cause.detail = detail) ↔ Check.FailsFirst p detail) ∧
      (∀ t, t ∈ c.contracts ↔ ∃ k, Obtains p source k ∧ Supports p k t) ∧
      c.contracts.Pairwise fun t u => t.ctorIdx < u.ctorIdx := by
  intro c
  have hstanding := standing_status kind id p source
  refine ⟨?_, ?_, fun t => mem_contracts_iff kind id p source,
    contracts_increasing kind id p source⟩
  · intro status
    constructor
    · rintro rfl
      exact hstanding
    · exact hstanding.unique
  · intro detail
    rw [← profile_fault_eq_some_iff kind id p source]
    constructor
    · rintro ⟨cause, hfault, hreason, hdetail⟩
      cases hprofile : c.profile.fault with
      | some cause' =>
        have hfault' := fault_of_profile kind id p source hprofile
        cases hfault.symm.trans hfault'
        exact ⟨cause, rfl, hdetail⟩
      | none =>
        have hvalid := (profile_fault_eq_none_iff kind id p source).1 hprofile
        have hinvalid : Standing kind p source (some .validationFailed) := by
          rwa [hfault, Option.map_some, hreason] at hstanding
        cases hinvalid with
        | invalid h => exact absurd h (hvalid _ _)
    · rintro ⟨cause, hprofile, hdetail⟩
      have hfault := fault_of_profile kind id p source hprofile
      rw [Check.fault_eq_findSome?] at hprofile
      obtain ⟨check, -, hcause⟩ := List.exists_of_findSome?_eq_some hprofile
      exact ⟨cause, hfault, Check.reason_of_cause? hcause, hdetail⟩

example : (ofProperties .resource (.generated 1) (.ofList [("service.scope", .text "request"),
    ("whiteboard.target", .text "(a")]) none).fault.map Cause.detail =
    some "whiteboard.target: invalid selector at position 2: unexpected end of input" := by
  decide +kernel

end Content

end Reconciliation
