import Reconciliation.Proofs.Text.Trimming
import Reconciliation.Provider.BasePath

/-! # What normalization leaves of a base path

Blanks, a wildcard and slashes are dropped one after the other, and what comes to light behind them
stays.
-/
namespace Reconciliation.BasePath

theorem dropSlashes_eq (cs : List Char) : dropSlashes cs = cs.rdropWhile (· == '/') :=
  rfl

theorem dropWildcard_append (cs : List Char) : dropWildcard (cs ++ ['/', '*']) = cs := by
  simp [dropWildcard]

/-- A text that does not end in a wildcard, and is none by itself, stays as it is. -/
theorem dropWildcard_eq_self {cs : List Char} (hends : ¬ ['/', '*'] <:+ cs) (hne : cs ≠ ['*']) :
    dropWildcard cs = cs := by
  unfold dropWildcard
  split
  · rename_i rest h
    have hcs : cs = rest.reverse ++ ['/', '*'] := by simpa using congrArg List.reverse h
    exact absurd ⟨rest.reverse, hcs.symm⟩ hends
  · rename_i h
    exact absurd (by simpa using congrArg List.reverse h) hne
  · rfl

theorem getLast?_of_wildcard {cs : List Char} (h : ['/', '*'] <:+ cs ∨ cs = ['*']) :
    cs.getLast? = some '*' := by
  obtain ⟨front, rfl⟩ | rfl := h
  · rw [List.getLast?_append]
    rfl
  · rfl

theorem dropWildcard_of_getLast? {cs : List Char} (h : cs.getLast? ≠ some '*') :
    dropWildcard cs = cs :=
  dropWildcard_eq_self (fun hends => h (getLast?_of_wildcard (Or.inl hends)))
    fun heq => h (getLast?_of_wildcard (Or.inr heq))

theorem dropWildcard_isPrefix (cs : List Char) : dropWildcard cs <+: cs := by
  by_cases hends : ['/', '*'] <:+ cs
  · obtain ⟨front, rfl⟩ := hends
    rw [dropWildcard_append]
    exact List.prefix_append _ _
  · by_cases hne : cs = ['*']
    · rw [hne]
      exact List.nil_prefix
    · simp only [dropWildcard_eq_self hends hne, List.prefix_rfl]

theorem dropSlashes_append {cs : List Char} (h : cs.getLast? ≠ some '/') (n : Nat) :
    dropSlashes (cs ++ List.replicate n '/') = cs := by
  rw [dropSlashes_eq]
  apply Text.rdropWhile_append
  · intro c hc
    simp [List.eq_of_mem_replicate hc]
  · intro c hc
    have hne : c ≠ '/' := fun heq => h (heq ▸ hc)
    simpa using hne

theorem exists_eq_dropSlashes_append (cs : List Char) :
    ∃ n, cs = dropSlashes cs ++ List.replicate n '/' := by
  have hslashes : cs.rtakeWhile (· == '/') = List.replicate (cs.rtakeWhile (· == '/')).length '/' := by
    apply List.eq_replicate_iff.2 ⟨rfl, ?_⟩
    intro c hc
    simpa using List.mem_rtakeWhile_imp hc
  refine ⟨(cs.rtakeWhile (· == '/')).length, ?_⟩
  rw [dropSlashes_eq, ← hslashes, List.rdropWhile_append_rtakeWhile]

theorem getLast?_dropSlashes (cs : List Char) : (dropSlashes cs).getLast? ≠ some '/' := by
  intro h
  have hlast := Text.getLast?_rdropWhile (p := (· == '/')) cs '/' h
  cases hlast

theorem dropSlashes_isPrefix (cs : List Char) : dropSlashes cs <+: cs :=
  List.rdropWhile_prefix _ _

theorem addSlash_of_rooted {cs : List Char} (h : cs.head? = some '/') : addSlash cs = cs := by
  obtain ⟨rest, rfl⟩ := List.head?_eq_some_iff.1 h
  rfl

theorem addSlash_of_unrooted {cs : List Char} (h : cs.head? ≠ some '/') :
    addSlash cs = '/' :: cs := by
  unfold addSlash
  split
  · exact absurd rfl h
  · rfl

theorem head?_addSlash (cs : List Char) : (addSlash cs).head? = some '/' := by
  by_cases h : cs.head? = some '/'
  · rwa [addSlash_of_rooted h]
  · rw [addSlash_of_unrooted h, List.head?_cons]

theorem getLast?_addSlash {cs : List Char} (hne : cs ≠ []) :
    (addSlash cs).getLast? = cs.getLast? := by
  by_cases h : cs.head? = some '/'
  · rw [addSlash_of_rooted h]
  · obtain ⟨c, rest, rfl⟩ := List.exists_cons_of_ne_nil hne
    rw [addSlash_of_unrooted h, List.getLast?_cons_cons]

theorem wildcard_suffix_addSlash {cs : List Char} :
    ['/', '*'] <:+ addSlash cs ↔ ['/', '*'] <:+ cs ∨ cs = ['*'] := by
  by_cases h : cs.head? = some '/'
  · have hne : cs ≠ ['*'] := by
      rintro rfl
      cases h
    rw [addSlash_of_rooted h, or_iff_left hne]
  · rw [addSlash_of_unrooted h, List.suffix_cons_iff, List.cons.injEq, or_comm, eq_comm (a := ['*'])]
    simp only [true_and]

/-- Ends in something that is dropped at the end of a text: a blank or a wildcard, and a star by itself
is one. -/
def IsLoose (cs : List Char) : Prop :=
  (∃ c ∈ cs.getLast?, Text.isBlank c = true) ∨ ['/', '*'] <:+ cs ∨ cs = ['*']

instance (cs : List Char) : Decidable (IsLoose cs) :=
  decidable_of_iff (cs.getLast?.any Text.isBlank = true ∨ ['/', '*'] <:+ cs ∨ cs = ['*']) <| by
    simp only [IsLoose, Option.any_eq_true, Option.mem_def]

structure IsNormal (cs : List Char) : Prop where
  rooted : cs.head? = some '/'
  /-- No blank stands at its beginning, -/
  starts : ∀ c ∈ cs.head?, Text.isBlank c = false
  /-- nor at its end. -/
  ends : ∀ c ∈ cs.getLast?, Text.isBlank c = false
  plain : ¬ ['/', '*'] <:+ cs
  closed : cs.getLast? = some '/' → cs = ['/']

/-- Slashes stand at the end, or before a star at the end, and behind something that is dropped at the
end of a text. -/
def IsLayered (cs : List Char) : Prop :=
  ∃ front n star, cs = front ++ List.replicate (n + 1) '/' ++ star ∧ (star = [] ∨ star = ['*']) ∧
    IsLoose front

theorem no_blank_of_slash {last : Option Char} (h : last = some '/') :
    ∀ c ∈ last, Text.isBlank c = false := by
  intro c hc
  obtain rfl := Option.some.inj (h.symm.trans hc)
  decide

theorem isNormal_root : IsNormal ['/'] :=
  ⟨rfl, no_blank_of_slash rfl, no_blank_of_slash rfl, by decide, fun _ => rfl⟩

/-- A path ends at the root or as the text did to which a slash was added. -/
theorem closed_addSlash {cs : List Char} (h : cs.getLast? ≠ some '/')
    (hlast : (addSlash cs).getLast? = some '/') : addSlash cs = ['/'] := by
  by_cases hne : cs = []
  · rw [hne]
    rfl
  · rw [getLast?_addSlash hne] at hlast
    exact absurd hlast h

theorem isNormal_addSlash_iff {cs : List Char} (h : cs.getLast? ≠ some '/') :
    IsNormal (addSlash cs) ↔ ¬ IsLoose cs := by
  constructor
  · rintro hnormal (⟨c, hc, hblank⟩ | hwildcard)
    · have hne : cs ≠ [] := by
        rintro rfl
        cases hc
      rw [← getLast?_addSlash hne] at hc
      exact absurd hblank (by simp [hnormal.ends c hc])
    · exact hnormal.plain (wildcard_suffix_addSlash.2 hwildcard)
  · intro hloose
    by_cases hne : cs = []
    · rw [hne]
      exact isNormal_root
    · refine ⟨head?_addSlash cs, no_blank_of_slash (head?_addSlash cs), ?_, ?_, closed_addSlash h⟩
      · intro c hc
        rw [getLast?_addSlash hne] at hc
        simpa using fun hblank => hloose (Or.inl ⟨c, hc, hblank⟩)
      · exact fun hwildcard => hloose (Or.inr (wildcard_suffix_addSlash.1 hwildcard))

theorem IsLoose.getLast?_ne {cs : List Char} (h : IsLoose cs) : cs.getLast? ≠ some '/' := by
  intro hlast
  obtain ⟨c, hc, hblank⟩ | hstar := h
  · obtain rfl := Option.some.inj (hlast.symm.trans hc)
    exact absurd hblank (by decide)
  · have hne := getLast?_of_wildcard hstar
    rw [hlast] at hne
    cases hne

theorem left_of_layers {front star : List Char} (h : front.getLast? ≠ some '/') (n : Nat)
    (hstar : star = [] ∨ star = ['*']) :
    dropSlashes (dropWildcard (front ++ List.replicate (n + 1) '/' ++ star)) = front := by
  rw [List.replicate_succ', ← List.append_assoc]
  obtain rfl | rfl := hstar
  · have hlast : (front ++ List.replicate n '/' ++ ['/']).getLast? ≠ some '*' := by
      rw [List.getLast?_concat]
      decide
    rw [List.append_nil, dropWildcard_of_getLast? hlast, List.append_assoc, ← List.replicate_succ']
    exact dropSlashes_append h (n + 1)
  · have hwildcard : front ++ List.replicate n '/' ++ ['/'] ++ ['*'] =
        front ++ List.replicate n '/' ++ ['/', '*'] := List.append_assoc _ _ _
    rw [hwildcard, dropWildcard_append]
    exact dropSlashes_append h n

/-- Of a text that has no blank at its end, it is told by what is left of it. -/
theorem isLayered_iff {cs : List Char} (h : ∀ c ∈ cs.getLast?, Text.isBlank c = false) :
    IsLayered cs ↔ IsLoose (dropSlashes (dropWildcard cs)) := by
  constructor
  · rintro ⟨front, n, star, rfl, hstar, hloose⟩
    rwa [left_of_layers hloose.getLast?_ne n hstar]
  · intro hloose
    by_cases hends : ['/', '*'] <:+ cs
    · obtain ⟨rest, rfl⟩ := hends
      rw [dropWildcard_append] at hloose
      obtain ⟨n, hn⟩ := exists_eq_dropSlashes_append rest
      refine ⟨dropSlashes rest, n, ['*'], ?_, Or.inr rfl, hloose⟩
      rw [List.replicate_succ', ← List.append_assoc, ← hn, List.append_assoc]
      rfl
    · by_cases hstar : cs = ['*']
      · rw [hstar] at hloose
        exact absurd hloose (by decide)
      · rw [dropWildcard_eq_self hends hstar] at hloose
        obtain ⟨n, hn⟩ := exists_eq_dropSlashes_append cs
        cases n with
        | zero =>
          -- Nothing was dropped, and the text itself ends neither in a blank nor in a wildcard.
          rw [List.replicate_zero, List.append_nil] at hn
          rw [← hn] at hloose
          obtain ⟨c, hc, hblank⟩ | hwildcard | hsole := hloose
          · exact absurd hblank (by simp [h c hc])
          · exact absurd hwildcard hends
          · exact absurd hsole hstar
        | succ n => exact ⟨dropSlashes cs, n, [], by rwa [List.append_nil], Or.inl rfl, hloose⟩

theorem normalizeChars_isNormal_iff (cs : List Char) :
    IsNormal (normalizeChars cs) ↔ ¬ IsLayered (Text.trimChars cs) := by
  have hends : ∀ c ∈ (Text.trimChars cs).getLast?, Text.isBlank c = false :=
    Text.getLast?_trimEnd (Text.trimStart cs)
  rw [isLayered_iff hends]
  exact isNormal_addSlash_iff (getLast?_dropSlashes _)

theorem normalizeChars_eq_self {cs : List Char} (h : IsNormal cs) : normalizeChars cs = cs := by
  have htrim : Text.trimChars cs = cs := by
    rw [Text.trimChars, Text.trimStart_eq_self h.starts]
    exact Text.rdropWhile_eq_self h.ends
  have hne : cs ≠ ['*'] := by
    rintro rfl
    cases h.rooted
  rw [normalizeChars, htrim, dropWildcard_eq_self h.plain hne]
  by_cases hlast : cs.getLast? = some '/'
  · rw [h.closed hlast]
    rfl
  · have hdrop : dropSlashes cs = cs := by
      have happend := dropSlashes_append hlast 0
      rwa [List.replicate_zero, List.append_nil] at happend
    rw [hdrop, addSlash_of_rooted h.rooted]

theorem eq_nil_or_eq_of_addSlash {left cs : List Char} (hfront : left <+: cs)
    (h : addSlash left = cs) : left = [] ∨ left = cs := by
  by_cases hnil : left = []
  · exact Or.inl hnil
  · right
    obtain ⟨dropped, rfl⟩ := hfront
    have hhead : (left ++ dropped).head? = some '/' := by
      rw [← h]
      exact head?_addSlash left
    rw [List.head?_append_of_ne_nil _ hnil] at hhead
    rwa [addSlash_of_rooted hhead] at h

/-- Where nothing is missing at the end, none of the three steps dropped anything. -/
theorem kept_of_left_eq {cs : List Char} (htrim : Text.trimChars cs <+: cs)
    (hleft : dropSlashes (dropWildcard (Text.trimChars cs)) = cs) :
    Text.trimChars cs = cs ∧ dropWildcard cs = cs ∧ dropSlashes cs = cs := by
  have hwildcard := dropWildcard_isPrefix (Text.trimChars cs)
  have hslashes := dropSlashes_isPrefix (dropWildcard (Text.trimChars cs))
  rw [hleft] at hslashes
  have htrimmed : Text.trimChars cs = cs :=
    htrim.eq_of_length_le (hslashes.length_le.trans hwildcard.length_le)
  rw [htrimmed] at hwildcard hslashes hleft
  have hplain : dropWildcard cs = cs := hwildcard.eq_of_length_le hslashes.length_le
  rw [hplain] at hleft
  exact ⟨htrimmed, hplain, hleft⟩

/-- A path that is as it was is in its final form: had anything been dropped, it would be shorter. -/
theorem isNormal_of_eq_self {cs : List Char} (h : normalizeChars cs = cs) : IsNormal cs := by
  have hrooted : cs.head? = some '/' := h ▸ head?_addSlash _
  have htrim : Text.trimChars cs <+: cs := by
    rw [Text.trimChars, Text.trimStart_eq_self (no_blank_of_slash hrooted)]
    exact Text.trimEnd_prefix cs
  have hfront : dropSlashes (dropWildcard (Text.trimChars cs)) <+: cs :=
    (dropSlashes_isPrefix _).trans ((dropWildcard_isPrefix _).trans htrim)
  obtain hnil | hleft := eq_nil_or_eq_of_addSlash hfront h
  · rw [normalizeChars, hnil] at h
    rw [← h]
    exact isNormal_root
  · obtain ⟨htrimmed, hplain, hclosed⟩ := kept_of_left_eq htrim hleft
    refine ⟨hrooted, no_blank_of_slash hrooted, ?_, ?_, ?_⟩
    · rw [← htrimmed]
      exact Text.getLast?_trimEnd _
    · rintro ⟨front, rfl⟩
      rw [dropWildcard_append] at hplain
      simp at hplain
    · intro hlast
      have hne := getLast?_dropSlashes cs
      rw [hclosed] at hne
      exact absurd hlast hne

theorem normalizeChars_eq_self_iff {cs : List Char} : normalizeChars cs = cs ↔ IsNormal cs :=
  ⟨isNormal_of_eq_self, normalizeChars_eq_self⟩

theorem toList_normalize (raw : String) : (normalize raw).toList = normalizeChars raw.toList :=
  String.toList_ofList

/-- Every path begins with a slash and ends with one only at the root. It is in its final form, and
the same when it is normalized again, unless the text was layered. -/
theorem normalize_final_unless_layered (raw : String) :
    (normalize raw).toList.head? = some '/' ∧
    ((normalize raw).toList.getLast? = some '/' ↔ normalize raw = "/") ∧
    (IsNormal (normalize raw).toList ↔ ¬ IsLayered (Text.trim raw).toList) ∧
    (normalize (normalize raw) = normalize raw ↔ ¬ IsLayered (Text.trim raw).toList) := by
  have hnormal : IsNormal (normalize raw).toList ↔ ¬ IsLayered (Text.trim raw).toList := by
    rw [toList_normalize, Text.trim, String.toList_ofList]
    exact normalizeChars_isNormal_iff raw.toList
  have hagain : normalize (normalize raw) = normalize raw ↔ IsNormal (normalize raw).toList := by
    rw [← normalizeChars_eq_self_iff, ← toList_normalize, String.toList_inj]
  refine ⟨?_, ⟨?_, ?_⟩, hnormal, hagain.trans hnormal⟩
  · rw [toList_normalize]
    exact head?_addSlash _
  · intro hlast
    rw [toList_normalize] at hlast
    rw [← String.toList_inj, toList_normalize]
    exact closed_addSlash (getLast?_dropSlashes _) hlast
  · intro hroot
    rw [hroot]
    rfl

/-- Of two wildcards one is dropped, and the other one only when the path is normalized again. -/
theorem stall_not_final : normalize "/stall/*/*" = "/stall/*" ∧
    normalize (normalize "/stall/*/*") ≠ normalize "/stall/*/*" ∧
    ¬ IsNormal (normalize "/stall/*/*").toList := by
  have honce : normalize "/stall/*/*" = "/stall/*" := by decide +kernel
  have htwice : normalize "/stall/*" = "/stall" := by decide +kernel
  rw [honce, htwice]
  exact ⟨rfl, by decide, fun h => h.plain (by decide)⟩

end Reconciliation.BasePath
