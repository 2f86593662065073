import Reconciliation.Proofs.Resolution.Mirroring
import Reconciliation.Proofs.Resolution.Support

/-! # Verdicts under other tokens

What an application keeps is the largest group that supports itself, whatever the order of its
members, so it keeps the same under other tokens, and lets the rest go for a reason of the same
class.
-/
namespace Reconciliation

namespace Renaming

def storedApplication (ρ : Renaming) (a : Stored Application) : Stored Application :=
  a.map ρ.onApplication

def storedContent (ρ : Renaming) (c : Stored Content) : Stored Content :=
  c.map ρ.onContent

@[simp] theorem record_storedContent (ρ : Renaming) (c : Stored Content) :
    (ρ.storedContent c).record = ρ.onContent c.record := rfl

theorem key_storedContent (ρ : Renaming) (c : Stored Content) :
    (Record.content (ρ.storedContent c).record).key = ρ.onKey (Record.content c.record).key := rfl

end Renaming

structure Accepted.Mirrors (ρ : Renaming) (a b : Accepted) : Prop where
  application : b.application = ρ.storedApplication a.application
  resources : b.resources.Perm (a.resources.map ρ.storedContent)
  extensions : b.extensions.Perm (a.extensions.map ρ.storedContent)

namespace Pass

variable {ρ : Renaming}

def KeysApart (cs : List (Stored Content)) : Prop :=
  (cs.map fun c => (Record.content c.record).key).Nodup

namespace KeysApart

variable {cs ds : List (Stored Content)}

theorem nodup (h : KeysApart cs) : cs.Nodup :=
  List.Nodup.of_map _ h

theorem eq_of_key (h : KeysApart cs) {c d : Stored Content} (hc : c ∈ cs) (hd : d ∈ cs)
    (hkey : (Record.content c.record).key = (Record.content d.record).key) : c = d :=
  List.inj_on_of_nodup_map h hc hd hkey

theorem sublist (h : KeysApart cs) (hs : ds.Sublist cs) : KeysApart ds :=
  (hs.map _).nodup h

theorem renamed (h : KeysApart cs) (hp : ds.Perm (cs.map ρ.storedContent)) : KeysApart ds := by
  have hkeys : ((cs.map ρ.storedContent).map fun c => (Record.content c.record).key) =
      (cs.map fun c => (Record.content c.record).key).map ρ.onKey := by
    rw [List.map_map, List.map_map]
    rfl
  rw [KeysApart, (hp.map _).nodup_iff, hkeys]
  exact List.Nodup.map ρ.onKey_injective h

theorem eq_of_storedContent (h : KeysApart cs) {c d : Stored Content} (hc : c ∈ cs) (hd : d ∈ cs)
    (heq : ρ.storedContent c = ρ.storedContent d) : c = d := by
  have hkey := congrArg (fun c : Stored Content => (Record.content c.record).key) heq
  exact h.eq_of_key hc hd (ρ.key_onRecord_inj.1 hkey)

end KeysApart

section Groups

variable {members members' : List (Stored Content)} {group : Set (Stored Content)}

theorem metWithin_image (hn : KeysApart members)
    (runtime : Properties) (a : Application) (hlisted : ∀ c ∈ group, c ∈ members)
    {self : Option (Stored Content)} (hself : ∀ c, self = some c → c ∈ members) (sel : Selector) :
    MetWithin runtime (ρ.onApplication a) (ρ.storedContent '' group) (self.map ρ.storedContent) sel ↔
      MetWithin runtime a group self sel := by
  refine or_congr_right ?_
  rw [Set.exists_mem_image]
  refine exists_congr fun e => and_congr_right fun he => and_congr_left fun _ => not_congr ?_
  cases self with
  | none => simp
  | some c =>
    rw [Option.map_some, Option.some.injEq, Option.some.injEq]
    exact ⟨hn.eq_of_storedContent (hlisted e he) (hself c rfl), congrArg ρ.storedContent⟩

theorem selfSupporting_image (hn : KeysApart members)
    (hp : members'.Perm (members.map ρ.storedContent)) (runtime : Properties) (a : Application)
    (hlisted : ∀ c ∈ group, c ∈ members) :
    SelfSupporting runtime (ρ.onApplication a) members' (ρ.storedContent '' group) ↔
      SelfSupporting runtime a members group := by
  have hmet (c : Stored Content) (hc : c ∈ group) (sel : Selector) :
      MetWithin runtime (ρ.onApplication a) (ρ.storedContent '' group)
        (some (ρ.storedContent c)) sel ↔ MetWithin runtime a group (some c) sel :=
    metWithin_image hn runtime a hlisted (fun d hd => Option.some.inj hd ▸ hlisted c hc) sel
  constructor
  · intro h
    refine ⟨hlisted, fun c hc sel hsel => (hmet c hc sel).1 ?_⟩
    exact h.met _ (Set.mem_image_of_mem _ hc) sel hsel
  · intro h
    refine ⟨?_, ?_⟩
    · rintro _ ⟨c, hc, rfl⟩
      exact hp.mem_iff.2 (List.mem_map_of_mem (hlisted c hc))
    · rintro _ ⟨c, hc, rfl⟩ sel hsel
      exact (hmet c hc sel).2 (h.met c hc sel hsel)

end Groups

structure Verdict.Mirrors (ρ : Renaming) (v w : Verdict) : Prop where
  apart : KeysApart v.members
  application : w.application = ρ.storedApplication v.application
  members : w.members.Perm (v.members.map ρ.storedContent)
  broken : w.outcome.application.isSome = v.outcome.application.isSome
  remaining : w.remaining.Perm (v.remaining.map ρ.storedContent)

section Judge

variable {members members' : List (Stored Content)}

/-- Who remains among the renamed members is who remains among the members. -/
theorem remaining_image (hn : KeysApart members)
    (hp : members'.Perm (members.map ρ.storedContent)) (runtime : Properties)
    (a : Stored Application) :
    {c | c ∈ (judge runtime (ρ.storedApplication a) members').remaining} =
      ρ.storedContent '' {c | c ∈ (judge runtime a members).remaining} := by
  have hgreatest : IsGreatest {group | SelfSupporting runtime a.record members group}
      {c | c ∈ (judge runtime a members).remaining} := remaining_greatest hn.nodup
  refine (remaining_greatest (hn.renamed hp).nodup).unique ⟨?_, ?_⟩
  · exact (selfSupporting_image hn hp runtime a.record remaining_listed).2 hgreatest.1
  · intro group hgroup
    have himage : group = ρ.storedContent '' {c | c ∈ members ∧ ρ.storedContent c ∈ group} := by
      ext d
      constructor
      · intro hd
        obtain ⟨c, hc, rfl⟩ := List.mem_map.1 (hp.mem_iff.1 (hgroup.listed d hd))
        exact ⟨c, ⟨hc, hd⟩, rfl⟩
      · rintro ⟨c, ⟨-, hd⟩, rfl⟩
        exact hd
    rw [himage] at hgroup ⊢
    refine Set.image_mono (hgreatest.2 ?_)
    exact (selfSupporting_image hn hp runtime a.record fun c hc => hc.1).1 hgroup

theorem judge_mirrors (hn : KeysApart members)
    (hp : members'.Perm (members.map ρ.storedContent)) (runtime : Properties)
    (a : Stored Application) :
    Verdict.Mirrors ρ (judge runtime a members)
      (judge runtime (ρ.storedApplication a) members') := by
  have hmembers' := (hn.renamed hp).nodup
  have himage := remaining_image hn hp runtime a
  refine ⟨hn, rfl, hp, ?_, ?_⟩
  · rw [Bool.eq_iff_iff, application_broken_iff hn.nodup, application_broken_iff hmembers', himage]
    refine exists_congr fun sel => and_congr_right fun _ => not_congr ?_
    have hself : ∀ c, (none : Option (Stored Content)) = some c → c ∈ members := by simp
    exact metWithin_image hn runtime a.record remaining_listed hself sel
  · have hleft := (judge runtime (ρ.storedApplication a) members').remaining_sublist.nodup hmembers'
    have hright : ((judge runtime a members).remaining.map ρ.storedContent).Nodup :=
      ((hn.sublist (judge runtime a members).remaining_sublist).renamed (.refl _)).nodup
    rw [List.perm_ext_iff_of_nodup hleft hright]
    intro c
    rw [List.mem_map]
    exact Set.ext_iff.1 himage c

end Judge

def lists (cs : List (Stored Content)) (k : Key) : Bool :=
  cs.any fun c => (Record.content c.record).key == k

theorem lists_iff {cs : List (Stored Content)} {k : Key} :
    lists cs k = true ↔ ∃ c ∈ cs, (Record.content c.record).key = k := by
  simp [lists]

theorem lists_perm {cs ds : List (Stored Content)} (h : ds.Perm (cs.map ρ.storedContent))
    (k : Key) : lists ds (ρ.onKey k) = lists cs k := by
  rw [lists, h.any_eq, List.any_map, lists]
  refine List.any_congr rfl fun c => ?_
  rw [Function.comp, ρ.key_storedContent, Bool.eq_iff_iff, beq_iff_eq, beq_iff_eq,
    ρ.onKey_injective.eq_iff]

theorem find?_said {es : List (Stored Content × Cause)} {k : Key} {reason : Reason}
    (h : ∀ e ∈ es, (Record.content e.1.record).key = k → e.2.reason = reason) :
    ((es.find? fun e => (Record.content e.1.record).key == k).map fun e => e.2.reason) =
      if lists (es.map Prod.fst) k then some reason else none := by
  induction es with
  | nil => rfl
  | cons e es ih =>
    obtain ⟨he, hes⟩ := List.forall_mem_cons.1 h
    have ih := ih hes
    by_cases hk : (Record.content e.1.record).key = k
    · simp [lists, hk, he hk]
    · simp only [lists, List.map_cons, List.any_cons, List.find?_cons, beq_eq_false_iff_ne.2 hk,
        Bool.false_or] at ih ⊢
      exact ih

theorem lists_reverse (cs : List (Stored Content)) (k : Key) :
    lists cs.reverse k = lists cs k :=
  List.any_reverse

/-- Content that is lost with its application is lost for a reason of its kind, whatever the
application is called. -/
theorem reason_applicationUnavailable {c d : Stored Content}
    (h : (Record.content c.record).key = (Record.content d.record).key) (name name' : String) :
    (Cause.applicationUnavailable c.record.kind name).reason =
      (Cause.applicationUnavailable d.record.kind name').reason := by
  have hkind : c.record.kind.kind = d.record.kind.kind := congrArg Key.kind h
  revert hkind
  cases c.record.kind <;> cases d.record.kind <;> first | exact fun _ => rfl | exact nofun

namespace Verdict

/-- The class of the cause for which content is let go. Of several causes the last one counts. -/
def lossOf (v : Verdict) (c : Stored Content) : Option Reason :=
  (v.detached.reverse.find? fun d =>
    (Record.content d.1.record).key == (Record.content c.record).key).map fun d => d.2.reason

/-- Members that remain with a broken application are lost along with it, and those that were taken
out for what they require. -/
theorem lossOf_eq (v : Verdict) (c : Stored Content) : v.lossOf c =
    if v.outcome.application.isSome && lists v.remaining (Record.content c.record).key then
      some (Cause.applicationUnavailable c.record.kind "").reason
    else if lists (v.takenOut.map Prod.fst) (Record.content c.record).key then
      some .requiredExtensionsUnavailable
    else none := by
  have hout : ((v.takenOut.reverse.find? fun d =>
      (Record.content d.1.record).key == (Record.content c.record).key).map fun d => d.2.reason) =
      if lists (v.takenOut.map Prod.fst) (Record.content c.record).key then
        some .requiredExtensionsUnavailable else none := by
    rw [find?_said, List.map_reverse, lists_reverse]
    rintro ⟨d, cause⟩ hd -
    obtain ⟨r, -, hr⟩ := List.mem_filterMap.1 (List.mem_reverse.1 hd)
    obtain ⟨_, -, he⟩ := Option.map_eq_some_iff.1 hr
    rw [← congrArg Prod.snd he]
    rfl
  have hleft : ((v.leftBehind.reverse.find? fun d =>
      (Record.content d.1.record).key == (Record.content c.record).key).map fun d => d.2.reason) =
      if lists v.remaining (Record.content c.record).key then
        some (Cause.applicationUnavailable c.record.kind "").reason else none := by
    have hlisted : v.leftBehind.map Prod.fst = v.remaining := by
      simp [leftBehind, Function.comp_def]
    rw [find?_said, List.map_reverse, hlisted, lists_reverse]
    rintro ⟨d, cause⟩ hd hkey
    obtain ⟨_, -, he⟩ := List.mem_map.1 (List.mem_reverse.1 hd)
    obtain ⟨rfl, rfl⟩ := Prod.mk.inj he
    exact reason_applicationUnavailable hkey _ _
  rw [lossOf, detached_eq]
  cases v.outcome.application.isSome with
  | false => exact hout
  | true =>
    rw [if_pos rfl, List.reverse_append, List.find?_append, Option.map_or, hout, hleft]
    cases lists v.remaining (Record.content c.record).key <;> rfl

theorem mem_takenOut_iff {v : Verdict} (hn : v.members.Nodup) {c : Stored Content} :
    c ∈ v.takenOut.map Prod.fst ↔ c ∈ v.members ∧ c ∉ v.remaining := by
  have hout : c ∈ v.takenOut.map Prod.fst ↔
      ∃ i, v.members[i]? = some c ∧ v.outcome.isRemoved i = true := by
    simp only [takenOut, List.mem_map, List.mem_filterMap, Option.map_eq_some_iff,
      Outcome.isRemoved_iff, Prod.exists]
    grind
  rw [hout, mem_remaining]
  constructor
  · rintro ⟨i, hi, hremoved⟩
    refine ⟨List.mem_of_getElem? hi, ?_⟩
    rintro ⟨j, hj⟩
    obtain ⟨hplace, hstays⟩ := mem_staying.1 hj
    obtain ⟨hlt, -⟩ := List.getElem?_eq_some_iff.1 hi
    obtain rfl := (List.getElem?_inj hlt hn).1 (hi.trans hplace.symm)
    rw [hremoved] at hstays
    cases hstays
  · rintro ⟨hc, hstays⟩
    obtain ⟨i, hi⟩ := List.mem_iff_getElem?.1 hc
    refine ⟨i, hi, ?_⟩
    by_contra hnot
    exact hstays ⟨i, mem_staying.2 ⟨hi, by simpa using hnot⟩⟩

theorem lists_takenOut {v : Verdict} (hn : KeysApart v.members) (k : Key) :
    lists (v.takenOut.map Prod.fst) k = (lists v.members k && !lists v.remaining k) := by
  rw [Bool.eq_iff_iff, Bool.and_eq_true, Bool.not_eq_true', ← Bool.not_eq_true, lists_iff,
    lists_iff, lists_iff]
  constructor
  · rintro ⟨c, hc, rfl⟩
    obtain ⟨hc, hstays⟩ := (mem_takenOut_iff hn.nodup).1 hc
    refine ⟨⟨c, hc, rfl⟩, ?_⟩
    rintro ⟨d, hd, hkey⟩
    exact hstays (hn.eq_of_key (v.remaining_sublist.subset hd) hc hkey ▸ hd)
  · rintro ⟨⟨c, hc, rfl⟩, hstays⟩
    exact ⟨c, (mem_takenOut_iff hn.nodup).2 ⟨hc, fun hr => hstays ⟨c, hr, rfl⟩⟩, rfl⟩

end Verdict

namespace Verdict.Mirrors

variable {v w : Verdict}

theorem lossOf_eq (h : Mirrors ρ v w) (c : Stored Content) :
    w.lossOf (ρ.storedContent c) = v.lossOf c := by
  have hkind : (ρ.storedContent c).record.kind = c.record.kind := rfl
  rw [Verdict.lossOf_eq, Verdict.lossOf_eq, lists_takenOut (h.apart.renamed h.members),
    lists_takenOut h.apart, ρ.key_storedContent, hkind, h.broken, lists_perm h.remaining,
    lists_perm h.members]

theorem kept_perm (h : Mirrors ρ v w) : w.kept.Perm (v.kept.map ρ.storedContent) := by
  unfold Verdict.kept
  rw [h.broken]
  split
  · exact .nil
  · exact h.remaining

theorem keeps_eq (h : Mirrors ρ v w) (k : Key) : w.keeps (ρ.onKey k) = v.keeps k :=
  lists_perm h.kept_perm k

theorem accepted? (h : Mirrors ρ v w) :
    Option.Rel (Accepted.Mirrors ρ) v.accepted? w.accepted? := by
  have hkind (kind : ContentKind) : (w.kept.filter fun c => c.record.kind == kind).Perm
      ((v.kept.filter fun c => c.record.kind == kind).map ρ.storedContent) := by
    have hfilter := h.kept_perm.filter fun c => c.record.kind == kind
    rwa [List.filter_map] at hfilter
  unfold Verdict.accepted?
  rw [h.broken]
  split
  · exact .none
  · exact .some ⟨h.application, hkind .resource, hkind .extension⟩

theorem failure? (h : Mirrors ρ v w) :
    w.failure?.map Failure.gist = v.failure?.map ρ.gist := by
  have hgist (u : Verdict) : u.failure?.map Failure.gist =
      if u.outcome.application.isSome then
        some (.application u.application.record, .requiredExtensionsUnavailable)
      else none := by
    cases hbroken : u.outcome.application <;> simp [Verdict.failure?, hbroken, Failure.gist,
      Cause.reason]
  have hunder : v.failure?.map ρ.gist =
      (v.failure?.map Failure.gist).map (Prod.map ρ.onRecord id) := by
    rw [Option.map_map]
    rfl
  rw [hunder, hgist, hgist, h.broken, h.application]
  split <;> rfl

end Verdict.Mirrors

end Pass

end Reconciliation
