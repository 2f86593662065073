import Reconciliation.Proofs.Roster
import Reconciliation.Proofs.Worker.Delivery

/-! # Nobody is left asleep at a mailbox

A caller who stands in line at a signal sleeps until it is called. For every sleeper that could be
served somebody is on the way: a caller who was called alone, or one who is about to try.
-/
namespace Reconciliation

namespace Signal

variable (s : Signal) (c : Nat)

def members : List Nat := s.line ++ s.called

theorem members_notify : s.notify.members.Perm s.members := by
  unfold notify members
  cases hline : s.line with
  | nil => exact List.Perm.refl _
  | cons d rest =>
    dsimp only
    rw [← List.append_assoc]
    exact List.perm_append_singleton d (rest ++ s.called)

theorem line_notify_subset : s.notify.line ⊆ s.line := by
  unfold notify
  cases hline : s.line with
  | nil => exact List.Subset.refl _
  | cons d rest => exact List.subset_cons_self d rest

theorem length_called_notify (h : s.line ≠ []) :
    s.notify.called.length = s.called.length + 1 := by
  unfold notify
  cases hline : s.line with
  | nil => exact absurd hline h
  | cons d rest => exact List.length_append

theorem members_leave (h : s.members.Nodup) : (s.leave c).members.Perm (s.members.erase c) := by
  unfold leave
  by_cases hc : c ∈ s.called
  · have hline : c ∉ s.line := fun hl => List.disjoint_of_nodup_append h hl hc
    have herase : s.members.erase c = (s.resume c).members := List.erase_append_right _ hline
    rw [if_pos hc, herase]
    exact members_notify (s.resume c)
  · rw [if_neg hc]
    unfold members
    by_cases hl : c ∈ s.line
    · rw [List.erase_append_left _ hl]
    · rw [List.erase_append_right _ hl, List.erase_of_not_mem hl, List.erase_of_not_mem hc]

theorem line_leave_subset : (s.leave c).line ⊆ s.line := by
  unfold leave
  split
  · exact line_notify_subset (s.resume c)
  · exact List.erase_subset

/-- Whoever leaves does not make a call go astray as long as somebody stands in line. -/
theorem length_called_leave (h : (s.leave c).line ≠ []) :
    s.called.length ≤ (s.leave c).called.length := by
  unfold leave at h ⊢
  by_cases hc : c ∈ s.called
  · rw [if_pos hc] at h ⊢
    have hline : (s.resume c).line ≠ [] := by
      intro hnil
      have hsub := line_notify_subset (s.resume c)
      rw [hnil] at hsub
      exact h (List.subset_nil.1 hsub)
    have herase : (s.resume c).called.length = s.called.length - 1 := List.length_erase_of_mem hc
    rw [length_called_notify _ hline]
    omega
  · apply Nat.le_of_eq
    rw [if_neg hc]

/-- Whoever is not there takes the kept call, or else the last place in line. -/
theorem enlist_cases (h : c ∉ s.line) :
    s.enlist c = { s with kept := false } ∨ s.enlist c = { s with line := s.line ++ [c] } := by
  unfold enlist
  by_cases hkept : s.kept = true
  · left
    rw [if_pos hkept]
  · right
    rw [if_neg hkept, if_neg h]

end Signal

namespace Mailbox

variable {α : Type}

namespace Caller

def isAwake (x : Caller α) : Bool :=
  x.stage != .waiting

def Sleeps (x : Caller α) (s : Signal) : Prop :=
  x.stage = .waiting ∧ x.id ∈ s.line

end Caller

/-- Somebody is on the way to every opening that a sleeper could have. -/
structure Attended (s : Signal) (callers : List (Caller α)) (openings : Nat) (closed : Bool) :
    Prop where
  nodup : s.members.Nodup
  present : ∀ c ∈ s.members, ∃ x ∈ callers, x.id = c ∧ x.stage ≠ .arriving
  owed : (∃ x ∈ callers, x.Sleeps s) →
    closed = false ∧ openings ≤ s.called.length + callers.countP Caller.isAwake

namespace Attended

variable {s : Signal} {x : Caller α} {callers others : List (Caller α)} {n n' : Nat}
  {closed : Bool}

theorem perm (h : Attended s callers n closed) (hperm : callers.Perm others) :
    Attended s others n closed := by
  refine ⟨h.nodup, ?_, ?_⟩
  · intro c hc
    obtain ⟨y, hy, hid⟩ := h.present c hc
    exact ⟨y, hperm.subset hy, hid⟩
  · rintro ⟨y, hy, hsleeps⟩
    rw [← hperm.countP_eq]
    exact h.owed ⟨y, hperm.symm.subset hy, hsleeps⟩

theorem fewer (h : Attended s callers n closed) (hle : n' ≤ n) : Attended s callers n' closed := by
  refine ⟨h.nodup, h.present, ?_⟩
  intro hsleeper
  obtain ⟨hopen, howed⟩ := h.owed hsleeper
  exact ⟨hopen, by omega⟩

theorem notify (h : Attended s callers n closed) (hle : n' ≤ n + 1) :
    Attended s.notify callers n' closed := by
  refine ⟨s.members_notify.nodup_iff.2 h.nodup, ?_, ?_⟩
  · intro c hc
    exact h.present c (s.members_notify.subset hc)
  · rintro ⟨y, hy, hwaiting, hline⟩
    have hbefore := s.line_notify_subset hline
    obtain ⟨hopen, howed⟩ := h.owed ⟨y, hy, hwaiting, hbefore⟩
    rw [s.length_called_notify (List.ne_nil_of_mem hbefore)]
    exact ⟨hopen, by omega⟩

theorem notifyAll (h : Attended s callers n closed) : Attended s.notifyAll callers n' true := by
  refine ⟨h.nodup.sublist (List.sublist_append_right _ _), ?_, ?_⟩
  · intro c hc
    exact h.present c (List.mem_append_right _ hc)
  · rintro ⟨y, -, -, hline⟩
    cases hline

theorem join (h : Attended s callers n closed) (c : Nat) (w : Want α) :
    Attended s (callers ++ [⟨c, w, .arriving⟩]) n closed := by
  refine ⟨h.nodup, ?_, ?_⟩
  · intro d hd
    obtain ⟨y, hy, hid⟩ := h.present d hd
    exact ⟨y, List.mem_append_left _ hy, hid⟩
  · rintro ⟨y, hy, hsleeps⟩
    rcases List.mem_append.1 hy with hy | hy
    · obtain ⟨hopen, howed⟩ := h.owed ⟨y, hy, hsleeps⟩
      rw [List.countP_append]
      exact ⟨hopen, by omega⟩
    · obtain rfl := List.mem_singleton.1 hy
      cases hsleeps.1

section one

variable (hothers : ∀ y ∈ others, y.id ≠ x.id)

include hothers

theorem present_others (h : Attended s (x :: others) n closed) {c : Nat} (hc : c ∈ s.members)
    (hne : c ≠ x.id) : ∃ y ∈ others, y.id = c ∧ y.stage ≠ .arriving := by
  obtain ⟨y, hy, hid, hstage⟩ := h.present c hc
  rcases List.mem_cons.1 hy with rfl | hy
  · exact absurd hid.symm hne
  · exact ⟨y, hy, hid, hstage⟩

theorem notMem_of_arriving (h : Attended s (x :: others) n closed) (hstage : x.stage = .arriving) :
    x.id ∉ s.members := by
  intro hmem
  obtain ⟨y, hy, hid, hnot⟩ := h.present x.id hmem
  rcases List.mem_cons.1 hy with rfl | hy
  · exact hnot hstage
  · exact hothers y hy hid

theorem enlist (h : Attended s (x :: others) n closed) (hstage : x.stage = .arriving) :
    Attended (s.enlist x.id) ({ x with stage := .enlisted } :: others) n closed := by
  have hnew := notMem_of_arriving hothers h hstage
  have hcount : ({ x with stage := .enlisted } :: others).countP Caller.isAwake =
      (x :: others).countP Caller.isAwake := by
    simp [List.countP_cons, Caller.isAwake, hstage]
  have hothers' : ∀ c ∈ s.members, ∃ y ∈ { x with stage := .enlisted } :: others,
      y.id = c ∧ y.stage ≠ .arriving := by
    intro c hc
    have hne : c ≠ x.id := ne_of_mem_of_not_mem hc hnew
    obtain ⟨y, hy, hid⟩ := present_others hothers h hc hne
    exact ⟨y, List.mem_cons_of_mem _ hy, hid⟩
  have howed : (∃ y ∈ others, y.Sleeps s) → closed = false ∧
      n ≤ s.called.length + ({ x with stage := .enlisted } :: others).countP Caller.isAwake := by
    rintro ⟨y, hy, hsleeps⟩
    rw [hcount]
    exact h.owed ⟨y, List.mem_cons_of_mem _ hy, hsleeps⟩
  rcases s.enlist_cases x.id fun hl => hnew (List.mem_append_left _ hl) with heq | heq
  · rw [heq]
    refine ⟨h.nodup, hothers', ?_⟩
    rintro ⟨y, hy, hwaiting, hl⟩
    rcases List.mem_cons.1 hy with rfl | hy
    · cases hwaiting
    · exact howed ⟨y, hy, hwaiting, hl⟩
  · have hperm : (s.enlist x.id).members.Perm (x.id :: s.members) := by
      rw [heq]
      unfold Signal.members
      rw [List.append_assoc]
      exact List.perm_middle
    rw [heq] at hperm ⊢
    refine ⟨hperm.nodup_iff.2 (List.nodup_cons.2 ⟨hnew, h.nodup⟩), ?_, ?_⟩
    · intro c hc
      rcases List.mem_cons.1 (hperm.subset hc) with rfl | hc
      · exact ⟨_, List.mem_cons_self, rfl, nofun⟩
      · exact hothers' c hc
    · rintro ⟨y, hy, hwaiting, hl⟩
      rcases List.mem_cons.1 hy with rfl | hy
      · cases hwaiting
      · rcases List.mem_append.1 hl with hl | hl
        · exact howed ⟨y, hy, hwaiting, hl⟩
        · exact absurd (List.mem_singleton.1 hl) (hothers y hy)

theorem resume (h : Attended s (x :: others) n closed) (hstage : x.stage = .waiting)
    (hline : x.id ∉ s.line) :
    Attended (s.resume x.id) ({ x with stage := .arriving } :: others) n closed := by
  have herase : (s.resume x.id).members = s.members.erase x.id := by
    rw [Signal.members, Signal.members, List.erase_append_right _ hline]
    rfl
  refine ⟨?_, ?_, ?_⟩
  · rw [herase]
    exact h.nodup.erase _
  · rw [herase]
    intro c hc
    obtain ⟨hne, hmem⟩ := (h.nodup.mem_erase_iff).1 hc
    obtain ⟨y, hy, hid⟩ := present_others hothers h hmem hne
    exact ⟨y, List.mem_cons_of_mem _ hy, hid⟩
  · rintro ⟨y, hy, hwaiting, hl⟩
    rcases List.mem_cons.1 hy with rfl | hy
    · cases hwaiting
    · obtain ⟨hopen, howed⟩ := h.owed ⟨y, List.mem_cons_of_mem _ hy, hwaiting, hl⟩
      have hcalled : s.called.length ≤ (s.resume x.id).called.length + 1 := by
        have hle : s.called.length - 1 ≤ (s.called.erase x.id).length := List.le_length_erase
        exact Nat.sub_le_iff_le_add.1 hle
      simp only [List.countP_cons, Caller.isAwake, hstage] at howed ⊢
      refine ⟨hopen, ?_⟩
      simp at howed ⊢
      omega

theorem wait (h : Attended s (x :: others) 0 false) :
    Attended s ({ x with stage := .waiting } :: others) 0 false := by
  refine ⟨h.nodup, ?_, fun _ => ⟨rfl, Nat.zero_le _⟩⟩
  intro c hc
  by_cases hne : c = x.id
  · exact ⟨_, List.mem_cons_self, hne.symm, nofun⟩
  · obtain ⟨y, hy, hid⟩ := present_others hothers h hc hne
    exact ⟨y, List.mem_cons_of_mem _ hy, hid⟩

/-- Whoever was about to try goes away with an opening, and who was called passes the call on. -/
theorem leave (h : Attended s (x :: others) n closed)
    (hserved : n' + [x].countP Caller.isAwake ≤ n ∨ closed = true) :
    Attended (s.leave x.id) others n' closed := by
  have hperm := s.members_leave x.id h.nodup
  refine ⟨hperm.nodup_iff.2 (h.nodup.erase _), ?_, ?_⟩
  · intro c hc
    obtain ⟨hne, hmem⟩ := (h.nodup.mem_erase_iff).1 (hperm.subset hc)
    exact present_others hothers h hmem hne
  · rintro ⟨y, hy, hwaiting, hl⟩
    have hbefore := s.line_leave_subset x.id hl
    obtain ⟨hopen, howed⟩ := h.owed ⟨y, List.mem_cons_of_mem _ hy, hwaiting, hbefore⟩
    have hcalled := s.length_called_leave x.id (List.ne_nil_of_mem hl)
    have hcount : (x :: others).countP Caller.isAwake =
        [x].countP Caller.isAwake + others.countP Caller.isAwake := by
      rw [← List.countP_append]
      rfl
    refine ⟨hopen, ?_⟩
    rcases hserved with hserved | hshut
    · omega
    · cases hopen.symm.trans hshut

end one

end Attended

def Want.isSend : Want α → Bool
  | .send _ => true
  | .receive => false

def post (b : Mailbox α) (sends : Bool) : Signal :=
  if sends then b.writable else b.readable

def mates (b : Mailbox α) (sends : Bool) : List (Caller α) :=
  b.callers.filter fun x => x.want.isSend == sends

def openings (b : Mailbox α) (sends : Bool) : Nat :=
  if sends then b.capacity - b.items.length else b.items.length

section mates

variable {b : Mailbox α} {x : Caller α}

theorem mem_of_caller? {c : Nat} (h : b.caller? c = some x) : x ∈ b.callers ∧ x.id = c :=
  of_find?_number h

theorem mem_mates {sends : Bool} : x ∈ b.mates sends ↔ x ∈ b.callers ∧ x.want.isSend = sends := by
  simp [mates]

theorem mates_setStage (c : Nat) (s : Stage) (sends : Bool) : (b.setStage c s).mates sends =
    (b.mates sends).map fun y => if y.id == c then { y with stage := s } else y := by
  unfold mates setStage
  rw [List.filter_map]
  congr 1
  apply List.filter_congr
  intro y _
  simp only [Function.comp]
  split <;> rfl

theorem mates_leave (c : Nat) (sends : Bool) :
    (b.leave c).mates sends = (b.mates sends).filter fun y => y.id != c := by
  rw [mates, mates, leave_callers, List.filter_comm]

theorem post_mapSignal_self (w : Want α) (f : Signal → Signal) :
    (b.mapSignal w f).post w.isSend = f (b.post w.isSend) := by
  cases w <;> rfl

theorem post_mapSignal_other (w : Want α) (f : Signal → Signal) :
    (b.mapSignal w f).post (!w.isSend) = b.post (!w.isSend) := by
  cases w <;> rfl

theorem post_setStage (c : Nat) (s : Stage) (sends : Bool) :
    (b.setStage c s).post sends = b.post sends :=
  rfl

theorem ids_eq : b.callers.map (·.id) = b.errands.map (·.1) := by
  rw [errands, List.map_map]
  rfl

theorem signal_eq (w : Want α) : b.signal w = b.post w.isSend := by
  cases w <;> rfl

variable (hunique : (b.callers.map (·.id)).Nodup)

include hunique

theorem mates_unique (sends : Bool) : ((b.mates sends).map (·.id)).Nodup :=
  hunique.sublist (List.filter_sublist.map _)

variable (hx : x ∈ b.callers)

include hx

theorem caller?_self : b.caller? x.id = some x :=
  find?_number_self hunique hx

theorem mates_perm :
    (b.mates x.want.isSend).Perm (x :: (b.mates x.want.isSend).filter fun y => y.id != x.id) :=
  perm_cons_others (mates_unique hunique _) (mem_mates.2 ⟨hx, rfl⟩)

theorem mates_setStage_perm (s : Stage) : ((b.setStage x.id s).mates x.want.isSend).Perm
    ({ x with stage := s } :: (b.mates x.want.isSend).filter fun y => y.id != x.id) := by
  rw [mates_setStage]
  exact map_perm_others (mates_unique hunique _) (mem_mates.2 ⟨hx, rfl⟩) fun y => { y with stage := s }

theorem id_ne_of_other {y : Caller α} (hy : y ∈ b.mates (!x.want.isSend)) : y.id ≠ x.id := by
  intro hid
  obtain ⟨hmem, hkind⟩ := mem_mates.1 hy
  obtain rfl := List.inj_on_of_nodup_map hunique hmem hx hid
  simp at hkind

theorem mates_setStage_other (s : Stage) :
    (b.setStage x.id s).mates (!x.want.isSend) = b.mates (!x.want.isSend) := by
  rw [mates_setStage]
  exact map_of_absent (fun y hy => id_ne_of_other hunique hx hy) fun y => { y with stage := s }

theorem mates_leave_other :
    (b.leave x.id).mates (!x.want.isSend) = b.mates (!x.want.isSend) := by
  rw [mates_leave]
  apply List.filter_eq_self.2
  intro y hy
  simpa using id_ne_of_other hunique hx hy

end mates

structure Vigilant (b : Mailbox α) : Prop where
  unique : (b.callers.map (·.id)).Nodup
  attended : ∀ sends, Attended (b.post sends) (b.mates sends) (b.openings sends) b.closed

/-- A caller of one kind comes; the other kind is told apart by negation. -/
theorem forall_kinds {P : Bool → Prop} {k : Bool} (hself : P k) (hother : P !k) : ∀ sends, P sends := by
  intro sends
  by_cases hk : sends = k
  · rwa [hk]
  · rwa [Bool.eq_not_of_ne hk]

namespace Vigilant

variable {b o : Mailbox α} {x : Caller α}

theorem empty (capacity : Nat) : (empty capacity : Mailbox α).Vigilant := by
  refine ⟨List.nodup_nil, ?_⟩
  intro sends
  refine ⟨?_, ?_, ?_⟩
  · cases sends <;> exact List.nodup_nil
  · cases sends <;> exact nofun
  · rintro ⟨y, hy, -⟩
    cases hy

theorem push (h : b.Vigilant) (m : α) : (b.push m).Vigilant := by
  refine ⟨h.unique, forall_kinds (k := true) ?_ ?_⟩
  · apply (h.attended true).fewer
    simp only [openings, Mailbox.push, if_true, List.length_append]
    omega
  · apply (h.attended false).notify
    simp [openings, Mailbox.push]

theorem join (h : b.Vigilant) {c : Nat} (hnew : b.caller? c = none) (w : Want α) :
    (b.join c w).Vigilant := by
  refine ⟨?_, forall_kinds (k := w.isSend) ?_ ?_⟩
  · exact nodup_append_fresh h.unique hnew
  · have hmates : (b.join c w).mates w.isSend = b.mates w.isSend ++ [⟨c, w, .arriving⟩] := by
      simp [mates, Mailbox.join]
    rw [hmates]
    exact (h.attended w.isSend).join c w
  · have hmates : (b.join c w).mates (!w.isSend) = b.mates (!w.isSend) := by
      simp [mates, Mailbox.join]
    rw [hmates]
    exact h.attended (!w.isSend)

theorem close (h : b.Vigilant) : b.close.Vigilant :=
  ⟨h.unique, forall_kinds (k := true) (h.attended true).notifyAll (h.attended false).notifyAll⟩

theorem attended_cons (h : b.Vigilant) (hx : x ∈ b.callers) :
    Attended (b.post x.want.isSend) (x :: (b.mates x.want.isSend).filter fun y => y.id != x.id)
      (b.openings x.want.isSend) b.closed :=
  (h.attended _).perm (mates_perm h.unique hx)

theorem others_ne {c : Nat} {sends : Bool} :
    ∀ y ∈ (b.mates sends).filter fun y => y.id != c, y.id ≠ c := by
  intro y hy
  simpa using (List.mem_filter.1 hy).2

/-- A caller comes to another stage, and its signal is changed for that. -/
theorem setStage (h : b.Vigilant) (hx : x ∈ b.callers) (f : Signal → Signal) (s : Stage)
    (hself : Attended (f (b.post x.want.isSend))
      ({ x with stage := s } :: (b.mates x.want.isSend).filter fun y => y.id != x.id)
      (b.openings x.want.isSend) b.closed) :
    ((b.mapSignal x.want f).setStage x.id s).Vigilant := by
  have hmates : ∀ sends, ((b.mapSignal x.want f).setStage x.id s).mates sends =
      (b.setStage x.id s).mates sends := by
    intro sends
    rw [mates_setStage, mates_setStage, mates, mates, mapSignal_callers]
  have hopenings : ∀ sends, ((b.mapSignal x.want f).setStage x.id s).openings sends =
      b.openings sends := by
    intro sends
    rw [openings, setStage_items, mapSignal_items, setStage_capacity, mapSignal_capacity, openings]
  have hclosed : ((b.mapSignal x.want f).setStage x.id s).closed = b.closed := mapSignal_closed b _ _
  refine ⟨?_, forall_kinds (k := x.want.isSend) ?_ ?_⟩
  · rw [ids_eq, setStage_errands, mapSignal_errands, ← ids_eq]
    exact h.unique
  · rw [hmates, hopenings, hclosed, post_setStage, post_mapSignal_self]
    exact hself.perm (mates_setStage_perm h.unique hx s).symm
  · rw [hmates, hopenings, hclosed, post_setStage, post_mapSignal_other,
      mates_setStage_other h.unique hx]
    exact h.attended _

/-- A caller comes away, having used an opening unless it only waited, or finding all closed. -/
theorem leave (h : b.Vigilant) (hx : x ∈ b.callers) (hcallers : o.callers = b.callers)
    (hclosed : o.closed = b.closed) (hpost : o.post x.want.isSend = b.post x.want.isSend)
    (hserved : o.openings x.want.isSend + [x].countP Caller.isAwake ≤ b.openings x.want.isSend ∨
      b.closed = true)
    (hother : Attended (o.post !x.want.isSend) (b.mates !x.want.isSend)
      (o.openings !x.want.isSend) b.closed) : (o.leave x.id).Vigilant := by
  have hunique : (o.callers.map (·.id)).Nodup := by rw [hcallers]; exact h.unique
  have hmem : x ∈ o.callers := by rw [hcallers]; exact hx
  have hmates : ∀ sends, o.mates sends = b.mates sends := by
    intro sends
    rw [mates, mates, hcallers]
  have hopenings : ∀ sends, (o.leave x.id).openings sends = o.openings sends := by
    intro sends
    rw [openings, leave_items, leave_capacity, openings]
  have hposts : ∀ sends, (o.leave x.id).post sends =
      (o.mapSignal x.want (·.leave x.id)).post sends := by
    intro sends
    unfold Mailbox.leave
    rw [caller?_self hunique hmem]
    rfl
  refine ⟨?_, forall_kinds (k := x.want.isSend) ?_ ?_⟩
  · rw [leave_callers]
    exact hunique.sublist (List.filter_sublist.map _)
  · rw [mates_leave, hmates, hopenings, leave_closed, hclosed, hposts, post_mapSignal_self, hpost]
    exact Attended.leave others_ne (h.attended_cons hx) hserved
  · rw [mates_leave_other hunique hmem, hmates, hopenings, leave_closed, hclosed, hposts,
      post_mapSignal_other]
    exact hother

theorem wait (h : b.Vigilant) (hx : x ∈ b.callers) (hfull : b.openings x.want.isSend = 0)
    (hopen : b.closed = false) : (b.setStage x.id .waiting).Vigilant := by
  have hsame : b.mapSignal x.want id = b := by cases x.want <;> rfl
  have hself := h.attended_cons hx
  rw [hfull, hopen] at hself
  have hstage := h.setStage hx id .waiting (by
    rw [hfull, hopen]
    exact Attended.wait others_ne hself)
  rwa [hsame] at hstage

theorem attempt (h : b.Vigilant) (hx : x ∈ b.callers) (hstage : x.stage = .enlisted) :
    (b.attempt x.id x.want).1.Vigilant := by
  have hawake : [x].countP Caller.isAwake = 1 := by simp [Caller.isAwake, hstage]
  have hrefused (hclosed : b.closed = true) : (b.leave x.id).Vigilant :=
    h.leave hx rfl rfl rfl (Or.inr hclosed) (h.attended _)
  cases hw : x.want with
  | send m =>
    have hkind : x.want.isSend = true := by rw [hw]; rfl
    unfold Mailbox.attempt
    cases ho : b.obstacle with
    | none =>
      obtain ⟨-, hroom⟩ := obstacle_eq_none ho
      refine h.leave (o := b.push m) hx rfl rfl ?_ (Or.inl ?_) ?_
      · rw [hkind]
        rfl
      · rw [hkind, hawake]
        simp only [openings, Mailbox.push, if_true, List.length_append, List.length_singleton]
        omega
      · rw [hkind]
        exact (h.push m).attended false
    | some e =>
      cases e with
      | closed => exact hrefused (obstacle_eq_closed ho)
      | full =>
        obtain ⟨hopen, hfull⟩ := obstacle_eq_full ho
        refine h.wait hx ?_ hopen
        rw [hkind]
        simp only [openings, if_true]
        omega
  | receive =>
    have hkind : x.want.isSend = false := by rw [hw]; rfl
    unfold Mailbox.attempt
    cases hi : b.items with
    | cons m rest =>
      refine h.leave (o := { b with items := rest, writable := b.writable.notify })
        hx rfl rfl ?_ (Or.inl ?_) ?_
      · rw [hkind]
        rfl
      · rw [hkind, hawake]
        simp [openings, hi]
      · rw [hkind]
        apply (h.attended true).notify
        simp only [openings, Bool.not_false, if_true, hi, List.length_cons]
        omega
    | nil =>
      cases hclosed : b.closed with
      | true => exact hrefused hclosed
      | false =>
        refine h.wait hx ?_ hclosed
        rw [hkind]
        simp [openings, hi]

theorem step (h : b.Vigilant) (c : Nat) : (b.step c).1.Vigilant := by
  unfold Mailbox.step
  cases hc : b.caller? c with
  | none => exact h
  | some x =>
    obtain ⟨hx, rfl⟩ := mem_of_caller? hc
    have hself := h.attended_cons hx
    cases hstage : x.stage with
    | arriving =>
      simp only [hstage]
      exact h.setStage hx _ _ (hself.enlist others_ne hstage)
    | enlisted =>
      simp only [hstage]
      exact h.attempt hx hstage
    | waiting =>
      simp only [hstage]
      by_cases hholds : (b.signal x.want).holds x.id = true
      · rw [if_pos hholds]
        exact h
      · rw [if_neg hholds]
        have hline : x.id ∉ (b.post x.want.isSend).line := by
          rw [← signal_eq]
          simpa [Signal.holds] using hholds
        exact h.setStage hx _ _ (hself.resume others_ne hstage hline)

end Vigilant

/-- Callers come under fresh numbers, and a call is dropped where it waits only: between waking up
and trying again it does not pause. -/
def Allows (b : Mailbox α) : Event α → Prop
  | .leave c => (b.caller? c).map (·.stage) = some .waiting
  | e => b.Enabled e

theorem Vigilant.next {b : Mailbox α} (h : b.Vigilant) {e : Event α} (he : b.Allows e) :
    (b.next e).Vigilant := by
  cases e with
  | trySend m =>
    cases ho : b.obstacle with
    | some o => rwa [Mailbox.next, trySend_of_obstacle ho]
    | none =>
      rw [Mailbox.next, trySend_of_no_obstacle ho]
      exact h.push m
  | join c w => exact h.join he w
  | step c => exact h.step c
  | close => exact h.close
  | leave c =>
    obtain ⟨x, hc, hstage⟩ := Option.map_eq_some_iff.1 he
    obtain ⟨hx, rfl⟩ := mem_of_caller? hc
    have hasleep : [x].countP Caller.isAwake = 0 := by simp [Caller.isAwake, hstage]
    exact h.leave hx rfl rfl rfl (Or.inl (by rw [hasleep]; omega)) (h.attended _)

def IsQuiet (b : Mailbox α) : Prop :=
  ∀ x ∈ b.callers, b.canStep x.id = false

/-- Where nobody has a step to make, nobody of a kind that could be served is there. -/
theorem Vigilant.mates_eq_nil {b : Mailbox α} (h : b.Vigilant) (hquiet : b.IsQuiet) {sends : Bool}
    (hserve : 0 < b.openings sends ∨ b.closed = true) : b.mates sends = [] := by
  have hasleep : ∀ x ∈ b.mates sends, x.Sleeps (b.post sends) := by
    intro x hx
    obtain ⟨hmem, hkind⟩ := mem_mates.1 hx
    have hstuck := hquiet x hmem
    unfold canStep at hstuck
    rw [caller?_self h.unique hmem] at hstuck
    simp only [Bool.or_eq_false_iff, bne_eq_false_iff_eq, Bool.not_eq_false'] at hstuck
    refine ⟨hstuck.1, ?_⟩
    rw [← hkind, ← signal_eq]
    simpa [Signal.holds] using hstuck.2
  have hattended := h.attended sends
  have hcalled : (b.post sends).called = [] := by
    apply List.eq_nil_iff_forall_not_mem.2
    intro c hc
    obtain ⟨x, hx, rfl, -⟩ := hattended.present c (List.mem_append_right _ hc)
    exact List.disjoint_of_nodup_append hattended.nodup (hasleep x hx).2 hc
  have hawake : (b.mates sends).countP Caller.isAwake = 0 := by
    apply List.countP_eq_zero.2
    intro x hx
    simp [Caller.isAwake, (hasleep x hx).1]
  by_contra hne
  obtain ⟨x, hx⟩ := List.exists_mem_of_ne_nil _ hne
  obtain ⟨hopen, howed⟩ := hattended.owed ⟨x, hx, hasleep x hx⟩
  rw [hcalled, hawake] at howed
  rcases hserve with hserve | hshut
  · simp at howed
    omega
  · cases hopen.symm.trans hshut

/-- However callers come, try, wait and are dropped while they wait, and whenever the mailbox is
closed: where nobody has a step to make, nobody waits for a message that is there, for room that is
there, or at a closed mailbox. -/
theorem empty_leaves_nobody_asleep {capacity : Nat} {events : List (Event α)}
    (h : Follows next Allows (empty capacity) events)
    (hquiet : ((empty capacity).after events).IsQuiet) :
    (((empty capacity).after events).items ≠ [] ∨ ((empty capacity).after events).closed = true →
      ∀ x ∈ ((empty capacity).after events).callers, x.want ≠ .receive) ∧
    (((empty capacity).after events).items.length < capacity ∨
        ((empty capacity).after events).closed = true →
      ∀ x ∈ ((empty capacity).after events).callers, ∀ m, x.want ≠ .send m) := by
  have hvigilant : ((empty capacity).after events).Vigilant :=
    h.keeps (.empty capacity) fun _ _ hb he => hb.next he
  have hcapacity := after_capacity capacity events
  generalize (empty capacity).after events = b at hquiet hvigilant hcapacity
  constructor
  · intro hserve x hx hwant
    have hnone : b.mates false = [] := by
      apply hvigilant.mates_eq_nil hquiet
      rcases hserve with hitems | hclosed
      · left
        simpa [openings] using List.length_pos_iff.2 hitems
      · exact Or.inr hclosed
    have hmem : x ∈ b.mates false := mem_mates.2 ⟨hx, by rw [hwant]; rfl⟩
    rw [hnone] at hmem
    cases hmem
  · intro hserve x hx m hwant
    have hnone : b.mates true = [] := by
      apply hvigilant.mates_eq_nil hquiet
      rcases hserve with hroom | hclosed
      · left
        simp only [openings, if_true]
        omega
      · exact Or.inr hclosed
    have hmem : x ∈ b.mates true := mem_mates.2 ⟨hx, by rw [hwant]; rfl⟩
    rw [hnone] at hmem
    cases hmem

instance (b : Mailbox α) : (e : Event α) → Decidable (b.Allows e)
  | .trySend _ | .close => isTrue trivial
  | .join c _ => inferInstanceAs (Decidable (b.caller? c = none))
  | .step c => inferInstanceAs (Decidable (b.caller? c ≠ none))
  | .leave c => inferInstanceAs (Decidable ((b.caller? c).map (·.stage) = some .waiting))

instance (b : Mailbox α) : Decidable b.IsQuiet :=
  inferInstanceAs (Decidable (∀ x ∈ b.callers, b.canStep x.id = false))

/-- Two receivers wait. The first one is called and dropped, so the second one gets the message. A
sender is held up by the next message; it takes the call that was kept for it, tries twice and
waits. -/
def passedOn : List (Event Nat) :=
  [.join 1 .receive, .step 1, .step 1, .join 2 .receive, .step 2, .step 2, .trySend 7, .leave 1,
    .step 2, .step 2, .step 2, .trySend 8, .join 3 (.send 9), .step 3, .step 3, .step 3, .step 3,
    .step 3]

theorem passedOn_leaves_nobody_asleep : Follows next Allows (empty 1) passedOn ∧
    ((empty 1).after passedOn).IsQuiet ∧ ((empty 1).after passedOn).items = [8] ∧
    ((empty 1).after passedOn).callers = [⟨3, .send 9, .waiting⟩] ∧
    ∀ x ∈ ((empty 1).after passedOn).callers, x.want ≠ .receive := by
  have hallowed : Follows next Allows (empty 1) passedOn := by decide
  have hquiet : ((empty 1).after passedOn).IsQuiet := by decide
  refine ⟨hallowed, hquiet, rfl, rfl, ?_⟩
  exact (empty_leaves_nobody_asleep hallowed hquiet).1 (Or.inl nofun)

end Mailbox

end Reconciliation
