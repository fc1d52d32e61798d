/-
  Laws of stripping. Blanks at an end never matter, and behind a character that is no blank the rest
  of a text is stripped for itself. A text is tight if it is not empty and stripping leaves it
  alone; the pieces of a logical line are tight, and so is every text between two tight ones.
-/
import Drydock.Text.Blank

namespace Drydock.Text

/-! ## The end of a text -/

theorem stripRight_isPrefix (t : Text) : stripRight t <+: t := by
  induction t with
  | nil => exact List.prefix_refl _
  | cons c t ih =>
    unfold stripRight
    dsimp only
    split
    · exact List.nil_prefix
    · exact (List.prefix_cons_inj c).mpr ih

theorem stripRight_eq_nil_iff (t : Text) : stripRight t = [] ↔ ∀ c ∈ t, isBlank c = true := by
  induction t with
  | nil => simp [stripRight]
  | cons c t ih =>
    by_cases h : isBlank c = true ∧ stripRight t = []
    · simpa [stripRight, h.1, h.2] using ih.mp h.2
    · have hne : stripRight (c :: t) = c :: stripRight t := by
        simp only [stripRight, Bool.and_eq_true, List.isEmpty_iff, if_neg h]
      rw [hne]
      constructor
      · intro hn
        exact absurd hn (List.cons_ne_nil _ _)
      · intro hall
        refine absurd ⟨hall c List.mem_cons_self, ih.mpr ?_⟩ h
        exact fun d hd => hall d (List.mem_cons_of_mem _ hd)

/-- Blanks at the end of a text are stripped. -/
theorem stripRight_append_blanks (t : Text) {b : Text} (h : ∀ c ∈ b, isBlank c = true) :
    stripRight (t ++ b) = stripRight t := by
  induction t with
  | nil => exact (stripRight_eq_nil_iff b).mpr h
  | cons c t ih => rw [List.cons_append, stripRight, stripRight, ih]

/-- A text whose end does not vanish protects what stands before it. -/
theorem stripRight_append_of_ne_nil (t : Text) {u : Text} (h : stripRight u ≠ []) :
    stripRight (t ++ u) = t ++ stripRight u := by
  induction t with
  | nil => rfl
  | cons c t ih =>
    have hne : (t ++ stripRight u).isEmpty = false := by simp [h]
    rw [List.cons_append, stripRight, ih]
    simp [hne]

/-! ## Both ends -/

/-- Blanks at the front of a text are stripped. -/
theorem strip_blanks_append {b : Text} (h : ∀ c ∈ b, isBlank c = true) (t : Text) :
    strip (b ++ t) = strip t := by
  unfold strip stripLeft
  rw [List.dropWhile_append_of_pos h]

/-- Blanks at the end of a text are stripped, from a blank text as well. -/
theorem strip_append_blanks (t : Text) {b : Text} (h : ∀ c ∈ b, isBlank c = true) :
    strip (t ++ b) = strip t := by
  unfold strip stripLeft
  rw [List.dropWhile_append]
  split
  · rename_i hnone
    have hb : (b ++ []).dropWhile isBlank = [] := List.dropWhile_append_of_pos h
    rw [List.append_nil] at hb
    rw [hb, List.isEmpty_iff.mp hnone]
  · exact stripRight_append_blanks _ h

theorem strip_isInfix (t : Text) : strip t <:+: t :=
  (stripRight_isPrefix _).isInfix.trans (List.dropWhile_suffix _).isInfix

theorem strip_cons_of_not_blank {c : Char} (h : isBlank c = false) (t : Text) :
    strip (c :: t) = c :: stripRight t := by
  unfold strip stripLeft
  rw [List.dropWhile_cons_of_neg (by simp [h]), stripRight]
  simp [h]

/-! ## Tight texts -/

/-- A text that is not empty and that has no blank at either end. -/
def IsTight (t : Text) : Prop := t ≠ [] ∧ strip t = t

instance (t : Text) : Decidable (IsTight t) := inferInstanceAs (Decidable (_ ∧ _))

/-- A tight text is a character that is no blank and a rest with no blank at its end. -/
theorem isTight_iff (t : Text) :
    IsTight t ↔ ∃ c u, t = c :: u ∧ isBlank c = false ∧ stripRight u = u := by
  constructor
  · rintro ⟨hne, hs⟩
    obtain ⟨c, u, rfl⟩ := List.exists_cons_of_ne_nil hne
    -- A blank at the front would make the stripped text shorter.
    have hc : isBlank c = false := by
      rcases Bool.eq_false_or_eq_true (isBlank c) with hc | hc
      · have hdrop : stripLeft (c :: u) = stripLeft u := List.dropWhile_cons_of_pos hc
        have hlen := congrArg List.length hs
        have h1 := (stripRight_isPrefix (stripLeft u)).length_le
        have h2 : (stripLeft u).length ≤ u.length := (List.dropWhile_suffix _).length_le
        rw [strip, hdrop, List.length_cons] at hlen
        omega
      · exact hc
    rw [strip_cons_of_not_blank hc] at hs
    exact ⟨c, u, rfl, hc, List.cons.inj hs |>.2⟩
  · rintro ⟨c, u, rfl, hc, hu⟩
    refine ⟨List.cons_ne_nil _ _, ?_⟩
    rw [strip_cons_of_not_blank hc, hu]

namespace IsTight

variable {t u : Text}

theorem stripRight_eq (h : IsTight t) : stripRight t = t := by
  obtain ⟨c, v, rfl, hc, hv⟩ := (isTight_iff t).mp h
  rw [stripRight, hv]
  simp [hc]

/-- Behind a tight text only the end is stripped. -/
theorem strip_append (h : IsTight t) (u : Text) : strip (t ++ u) = stripRight (t ++ u) := by
  obtain ⟨c, v, rfl, hc, -⟩ := (isTight_iff t).mp h
  rw [List.cons_append, strip_cons_of_not_blank hc, stripRight]
  simp [hc]

/-- A tight text protects what stands before it, and a space as well. -/
theorem stripRight_space (h : IsTight u) (t : Text) :
    stripRight (t ++ ' ' :: u) = t ++ ' ' :: u := by
  have hne : stripRight u ≠ [] := by
    rw [h.stripRight_eq]
    exact h.1
  rw [← List.singleton_append, ← List.append_assoc, stripRight_append_of_ne_nil _ hne,
    h.stripRight_eq]

end IsTight

theorem isTight_of_strip {c : Char} (h : isBlank c = false) (t : Text) :
    IsTight (strip (c :: t)) := by
  rw [strip_cons_of_not_blank h]
  exact (isTight_iff _).mpr ⟨c, stripRight t, rfl, h, stripRight_stripRight t⟩

/-! ## Two texts with a blank between them -/

/-- Two texts with a space between them, unless one is empty. -/
def joinBlank (t u : Text) : Text := if t = [] then u else if u = [] then t else t ++ ' ' :: u

theorem joinBlank_nil_left (t : Text) : joinBlank [] t = t := rfl

theorem joinBlank_nil_right (t : Text) : joinBlank t [] = t := by
  unfold joinBlank
  split
  · rename_i h
    exact h.symm
  · rfl

theorem joinBlank_of_ne_nil {t u : Text} (ht : t ≠ []) (hu : u ≠ []) :
    joinBlank t u = t ++ ' ' :: u := by
  rw [joinBlank, if_neg ht, if_neg hu]

theorem joinBlank_ne_nil {t : Text} (ht : t ≠ []) (u : Text) : joinBlank t u ≠ [] := by
  by_cases hu : u = []
  · rwa [hu, joinBlank_nil_right]
  · rw [joinBlank_of_ne_nil ht hu]
    simp

theorem joinBlank_assoc (t u v : Text) :
    joinBlank (joinBlank t u) v = joinBlank t (joinBlank u v) := by
  by_cases ht : t = []
  · rw [ht, joinBlank_nil_left, joinBlank_nil_left]
  · by_cases hu : u = []
    · rw [hu, joinBlank_nil_right, joinBlank_nil_left]
    · by_cases hv : v = []
      · rw [hv, joinBlank_nil_right, joinBlank_nil_right]
      · rw [joinBlank_of_ne_nil (joinBlank_ne_nil ht u) hv, joinBlank_of_ne_nil ht hu,
          joinBlank_of_ne_nil ht (joinBlank_ne_nil hu v), joinBlank_of_ne_nil hu hv,
          List.append_assoc, List.cons_append]

/-- Behind a tight text and a space, a text that begins with no blank is stripped for itself. -/
theorem IsTight.strip_space {t : Text} (ht : IsTight t) {u : Text}
    (hu : ∀ c ∈ u.head?, isBlank c = false) : strip (t ++ ' ' :: u) = joinBlank t (strip u) := by
  cases u with
  | nil =>
    have hspace : ∀ c ∈ [' '], isBlank c = true := by
      intro c hc
      rw [List.mem_singleton.mp hc]
      rfl
    rw [strip_nil, joinBlank_nil_right, ht.strip_append, stripRight_append_blanks t hspace,
      ht.stripRight_eq]
  | cons c u =>
    have hc := hu c rfl
    have hne : stripRight (c :: u) ≠ [] := by simp [stripRight, hc]
    have hrest : strip (c :: u) = stripRight (c :: u) := by
      rw [strip_cons_of_not_blank hc, stripRight]
      simp [hc]
    have hassoc : ∀ v : Text, t ++ ' ' :: v = t ++ [' '] ++ v := by simp
    rw [hrest, joinBlank_of_ne_nil ht.1 hne, ht.strip_append, hassoc (c :: u),
      hassoc (stripRight (c :: u)), stripRight_append_of_ne_nil _ hne]

end Drydock.Text
