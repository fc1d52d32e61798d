/-
  Texts in order. The order of code points is the lexicographic one, so that sorting texts each of
  which stands there once gives a strictly increasing row, and there is one such row of given texts
  (`eq_of_pairwise_lt`).
-/
import Drydock.Text.Basic
import Mathlib.Data.Char
import Mathlib.Data.List.Lex
import Mathlib.Data.List.Nodup

namespace Drydock

theorem nodup_eraseDups {α : Type} [BEq α] [LawfulBEq α] (l : List α) : l.eraseDups.Nodup := by
  match l with
  | [] => exact List.nodup_nil
  | a :: l =>
    rw [List.eraseDups_cons]
    refine List.nodup_cons.mpr ⟨fun ha => ?_, nodup_eraseDups (l.filter fun b => !b == a)⟩
    have hother := (List.mem_filter.mp (List.mem_eraseDups.mp ha)).2
    exact absurd hother (by simp)
termination_by l.length
decreasing_by
  exact Nat.lt_succ_of_le (List.length_filter_le _ _)

namespace Text

theorem isAtMost_iff (s t : Text) : isAtMost s t = true ↔ s ≤ t := by
  rw [← not_lt]
  induction s generalizing t with
  | nil => simp [isAtMost]
  | cons c s ih =>
    cases t with
    | nil => simp [isAtMost]
    | cons d t =>
      rw [isAtMost, List.cons_lt_cons_iff]
      by_cases hcd : c = d
      · subst hcd
        rw [if_pos rfl, ih]
        simp
      · rw [if_neg hcd, decide_eq_true_iff, or_iff_left (fun h => hcd h.1.symm), not_lt]
        exact (lt_iff_le_and_ne (a := c) (b := d)).trans (and_iff_left hcd)

/-- Texts that stand there once are sorted strictly. -/
theorem pairwise_sort {texts : List Text} (h : texts.Nodup) : (sort texts).Pairwise (· < ·) := by
  have hordered : (sort texts).Pairwise fun s t => isAtMost s t = true := by
    refine List.pairwise_mergeSort (fun a b c hab hbc => ?_) (fun a b => ?_) texts
    · rw [isAtMost_iff] at hab hbc ⊢
      exact hab.trans hbc
    · rw [Bool.or_eq_true, isAtMost_iff, isAtMost_iff]
      exact le_total a b
  have hdistinct : (sort texts).Nodup := (List.mergeSort_perm texts isAtMost).nodup_iff.mpr h
  refine hordered.imp₂ (fun s t hle hne => ?_) hdistinct
  exact lt_of_le_of_ne ((isAtMost_iff s t).mp hle) hne

theorem mem_sort_iff {texts : List Text} {t : Text} : t ∈ sort texts ↔ t ∈ texts :=
  List.mem_mergeSort

/-- There is only one increasing row of given texts. -/
theorem eq_of_pairwise_lt {row other : List Text} (hrow : row.Pairwise (· < ·))
    (hother : other.Pairwise (· < ·)) (h : ∀ t, t ∈ row ↔ t ∈ other) : row = other := by
  have hperm : row.Perm other :=
    (List.perm_ext_iff_of_nodup (hrow.imp ne_of_lt) (hother.imp ne_of_lt)).mpr h
  exact hperm.eq_of_pairwise (fun a b _ _ hab hba => absurd hab (lt_asymm hba)) hrow hother

end Text

end Drydock
