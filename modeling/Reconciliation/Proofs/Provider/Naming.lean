import Mathlib.Data.String.Basic
import Reconciliation.Proofs.Provider.Declaration

/-! # Generated and given names

A generated name tells its kind and its id. Given names that are without a fault never begin like a
generated one, so the two are told apart.
-/
namespace Reconciliation

theorem lt_append_iff {p : List Char} (ys zs : List Char) {xs : List Char} (h : ¬ p <+: xs) :
    xs < p ++ ys ↔ xs < p ++ zs := by
  induction p generalizing xs with
  | nil => exact absurd List.nil_prefix h
  | cons c p ih =>
    cases xs with
    | nil => simp
    | cons x xs =>
      rw [List.cons_append, List.cons_append, List.cons_lt_cons_iff, List.cons_lt_cons_iff]
      refine or_congr_right (and_congr_right fun hx => ih fun hp => h ?_)
      rw [hx]
      exact List.cons_prefix_cons.2 ⟨rfl, hp⟩

theorem compare_append_eq {x p : String} (h : ¬ p.toList <+: x.toList) (s t : String) :
    compare x (p ++ s) = compare x (p ++ t) := by
  have hne (u : String) : x ≠ p ++ u := by
    rintro rfl
    exact h (String.toList_append ▸ List.prefix_append _ _)
  have hlt : x < p ++ s ↔ x < p ++ t := by
    rw [String.lt_iff_toList_lt, String.lt_iff_toList_lt, String.toList_append,
      String.toList_append]
    exact lt_append_iff _ _ h
  have hcompare (u : String) : compare x (p ++ u) = if x < p ++ u then .lt else .gt := by
    change compareOfLessAndEq x (p ++ u) = _
    rw [compareOfLessAndEq, if_neg (hne u)]
  simp only [hcompare, hlt]

theorem toString_nat_injective : Function.Injective (toString : Nat → String) := by
  intro m n h
  have hdigits : Nat.toDigits 10 m = Nat.toDigits 10 n := String.ofList_injective h
  have hread (k : Nat) : Nat.ofDigitChars 10 (Nat.toDigits 10 k) 0 = k :=
    Nat.ofDigitChars_toDigits (by decide) (by decide)
  rw [← hread m, hdigits, hread]

theorem isDigit_of_toString_nat {n : Nat} {c : Char} {s : String}
    (h : toString n = String.singleton c ++ s) : c.isDigit = true := by
  have hdigits : Nat.toDigits 10 n = c :: s.toList := by
    have hlist := congrArg String.toList h
    simpa [toString, Nat.repr] using hlist
  exact Nat.isDigit_of_mem_toDigits (by decide) (by decide) (hdigits ▸ List.mem_cons_self)

theorem toString_int_injective : Function.Injective (toString : Int → String) := by
  intro m n h
  cases m with
  | ofNat m =>
    cases n with
    | ofNat n => exact congrArg Int.ofNat (toString_nat_injective h)
    | negSucc n => cases isDigit_of_toString_nat (c := '-') h
  | negSucc m =>
    cases n with
    | ofNat n => cases isDigit_of_toString_nat (c := '-') h.symm
    | negSucc n =>
      have hsucc : m.succ = n.succ := toString_nat_injective ((String.append_right_inj "-").1 h)
      rw [Nat.succ.inj hsucc]

namespace ProviderId

/-- No number begins with the letter of the tokens. -/
theorem text_registered_ne_generated (n : Int64) (t : Nat) :
    (registered n).text ≠ (generated t).text := by
  intro h
  change toString n.toInt = "g" ++ toString t at h
  cases hn : n.toInt with
  | ofNat m =>
    rw [hn] at h
    cases isDigit_of_toString_nat (c := 'g') h
  | negSucc m =>
    rw [hn] at h
    have hlist : '-' :: (toString m.succ).toList = 'g' :: (toString t).toList :=
      (String.toList_append).symm.trans ((congrArg String.toList h).trans String.toList_append)
    cases (List.cons.inj hlist).1

theorem text_injective : Function.Injective text := by
  intro a b h
  cases a with
  | registered m =>
    cases b with
    | registered n => exact congrArg registered (Int64.toInt_inj.1 (toString_int_injective h))
    | generated u => exact absurd h (text_registered_ne_generated m u)
  | generated t =>
    cases b with
    | registered n => exact absurd h.symm (text_registered_ne_generated n t)
    | generated u =>
      exact congrArg generated (toString_nat_injective ((String.append_right_inj "g").1 h))

end ProviderId

namespace Profile

def generatedMark : String := ".generated."

theorem generatedName_eq (kind : Kind) (id : ProviderId) :
    generatedName kind id = generatedMark ++ (kind.text ++ ("." ++ id.text)) := by
  simp [generatedName, generatedMark, toString, String.append_assoc]

theorem kind_eq_of_text {k k' : Kind} {s t : String} (h : k.text ++ s = k'.text ++ t) : k = k' := by
  have hhead (kind : Kind) (u : String) : (kind.text ++ u).toList.head? = kind.text.toList.head? := by
    rw [String.toList_append]
    cases kind <;> rfl
  have hheads := (hhead k s).symm.trans ((congrArg (fun u => u.toList.head?) h).trans (hhead k' t))
  revert hheads
  cases k <;> cases k' <;> decide

theorem generatedName_inj {k k' : Kind} {id id' : ProviderId} :
    generatedName k id = generatedName k' id' ↔ k = k' ∧ id = id' := by
  constructor
  · intro h
    rw [generatedName_eq, generatedName_eq, String.append_right_inj] at h
    obtain rfl := kind_eq_of_text h
    rw [String.append_right_inj, String.append_right_inj] at h
    exact ⟨rfl, ProviderId.text_injective h⟩
  · rintro ⟨rfl, rfl⟩
    rfl

/-- A name that is given without a fault does not begin like a generated one. -/
theorem unmarked_of_nameFault {defaultAllowed : Bool} {name : String}
    (h : nameFault defaultAllowed name = none) : ¬ generatedMark.toList <+: name.toList := by
  rintro ⟨rest, hname⟩
  have hreserved : startsReserved name = true := by
    rw [startsReserved, ← hname]
    rfl
  by_cases hdefault : name = Keys.defaultName
  · have hlong : generatedMark.toList.length = 11 := by decide +kernel
    have hshort : Keys.defaultName.toList.length = 8 := by decide +kernel
    rw [hdefault] at hname
    rw [← hname, List.length_append, hlong] at hshort
    omega
  · simp [nameFault, hreserved, hdefault] at h

theorem compare_generatedName_eq {name : String} (h : ¬ generatedMark.toList <+: name.toList)
    (k k' : Kind) (id id' : ProviderId) :
    Ord.compare name (generatedName k id) = Ord.compare name (generatedName k' id') := by
  rw [generatedName_eq, generatedName_eq]
  exact compare_append_eq h _ _

theorem ne_generatedName {name : String} (h : ¬ generatedMark.toList <+: name.toList)
    (k : Kind) (id : ProviderId) : name ≠ generatedName k id := by
  rintro rfl
  rw [generatedName_eq, String.toList_append] at h
  exact h (List.prefix_append _ _)

theorem name_ofProperties (id : ProviderId) (kind : Kind) (p : Properties)
    (h : (ofProperties id kind p).nameGenerated = true) :
    (ofProperties id kind p).name = generatedName kind id := by
  have hnone : (p.get? Keys.name).map Value.display = none := Option.isNone_iff_eq_none.1 h
  simp [ofProperties, hnone]

theorem unmarked_ofProperties (id : ProviderId) (kind : Kind) (p : Properties)
    (hf : (ofProperties id kind p).fault = none)
    (hg : (ofProperties id kind p).nameGenerated = false) :
    ¬ generatedMark.toList <+: (ofProperties id kind p).name.toList := by
  obtain ⟨name, hname⟩ := Option.isSome_iff_exists.1 (Option.isNone_eq_false_iff.1 hg)
  have hfault : (some name).bind (nameFault (kind == .application)) = none :=
    hname ▸ (Option.or_eq_none_iff.1 hf).1
  have hread : (ofProperties id kind p).name = name := by simp [ofProperties, hname]
  rw [hread]
  exact unmarked_of_nameFault hfault

end Profile

namespace Record.Declared

variable {r : Record}

theorem name_of_generated (h : r.Declared) (hg : r.profile.nameGenerated = true) :
    r.name = Profile.generatedName r.kind r.id := by
  obtain ⟨kind, id, p, source, rfl⟩ := h
  cases kind <;> exact Profile.name_ofProperties id _ p hg

theorem unmarked (h : r.Declared) (hf : r.fault = none) (hg : r.profile.nameGenerated = false) :
    ¬ Profile.generatedMark.toList <+: r.name.toList := by
  obtain ⟨kind, id, p, source, rfl⟩ := h
  cases kind with
  | application => exact Profile.unmarked_ofProperties id _ p (Option.or_eq_none_iff.1 hf).1 hg
  | resource =>
    have hprofile := (Option.or_eq_none_iff.1 hf).1
    exact Profile.unmarked_ofProperties id _ p (Option.or_eq_none_iff.1 hprofile).1 hg
  | extension =>
    have hprofile := (Option.or_eq_none_iff.1 hf).1
    exact Profile.unmarked_ofProperties id _ p (Option.or_eq_none_iff.1 hprofile).1 hg

end Record.Declared

end Reconciliation
