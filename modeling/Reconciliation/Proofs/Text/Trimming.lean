import Mathlib.Data.List.DropRight
import Reconciliation.Text.Blank

/-! # The ends of a text

What is dropped at the end of a text is all there is of its kind, and nothing else. Trimming drops
blanks at both ends.
-/
namespace Reconciliation.Text

section

variable {α : Type} {p : α → Bool}

theorem getLast?_rdropWhile (cs : List α) : ∀ c ∈ (cs.rdropWhile p).getLast?, p c = false := by
  intro c hc
  have hhead := List.head?_dropWhile_not p cs.reverse
  rw [List.rdropWhile, List.getLast?_reverse] at hc
  rwa [Option.mem_def.1 hc] at hhead

theorem dropWhile_eq_self_of_head? {cs : List α} (h : ∀ c ∈ cs.head?, p c = false) :
    cs.dropWhile p = cs := by
  cases cs with
  | nil => rfl
  | cons c cs =>
    rw [List.dropWhile_cons_of_neg]
    simp [h c rfl]

theorem rdropWhile_append {text after : List α} (ha : ∀ c ∈ after, p c = true)
    (h : ∀ c ∈ text.getLast?, p c = false) : (text ++ after).rdropWhile p = text := by
  have hafter : ∀ c ∈ after.reverse, p c = true := fun c hc => ha c (by simpa using hc)
  have hlast : text.reverse.dropWhile p = text.reverse := by
    apply dropWhile_eq_self_of_head?
    rwa [List.head?_reverse]
  rw [List.rdropWhile, List.reverse_append, List.dropWhile_append_of_pos hafter, hlast,
    List.reverse_reverse]

theorem rdropWhile_eq_self {cs : List α} (h : ∀ c ∈ cs.getLast?, p c = false) :
    cs.rdropWhile p = cs := by
  have happend : (cs ++ []).rdropWhile p = cs := rdropWhile_append nofun h
  rwa [List.append_nil] at happend

end

theorem trimEnd_eq (cs : List Char) : trimEnd cs = cs.rdropWhile isBlank :=
  rfl

theorem trimStart_eq_self {cs : List Char} (h : ∀ c ∈ cs.head?, isBlank c = false) :
    trimStart cs = cs :=
  dropWhile_eq_self_of_head? h

theorem trimEnd_prefix (cs : List Char) : trimEnd cs <+: cs :=
  List.rdropWhile_prefix isBlank cs

theorem getLast?_trimEnd (cs : List Char) : ∀ c ∈ (trimEnd cs).getLast?, isBlank c = false :=
  getLast?_rdropWhile cs

theorem trimChars_ne_nil {c : Char} {cs : List Char} (hc : isBlank c = false) :
    trimChars (c :: cs) ≠ [] := by
  have hstart : trimStart (c :: cs) = c :: cs := trimStart_eq_self (by simpa using hc)
  rw [trimChars, hstart, trimEnd_eq, ne_eq, List.rdropWhile_eq_nil_iff]
  intro hall
  simp [hc] at hall

end Reconciliation.Text
