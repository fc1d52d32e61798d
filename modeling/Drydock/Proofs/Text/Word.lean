/-
  The first word of a text. A text is stripped if and only if neither of its end characters is a
  blank; so a text is stripped as soon as it is the rest of a stripped one and begins with no blank,
  and a word with a stripped text behind it is taken apart into just these two
  (`firstField_joinBlank`).
-/
import Mathlib.Data.List.DropRight
import Drydock.Proofs.Text.Blank
import Drydock.Proofs.Text.Line

namespace Drydock.Text

/-! ## The end characters of a stripped text -/

theorem stripRight_eq_rdropWhile (t : Text) : stripRight t = t.rdropWhile isBlank := by
  induction t using List.reverseRecOn with
  | nil => rfl
  | append_singleton t c ih =>
    cases hc : isBlank c with
    | true =>
      have hblanks : ∀ d ∈ [c], isBlank d = true := fun d hd => List.mem_singleton.mp hd ▸ hc
      rw [stripRight_append_blanks t hblanks, ih, List.rdropWhile_concat_pos _ _ _ hc]
    | false =>
      have hsolid : stripRight [c] = [c] := by simp [stripRight, hc]
      rw [stripRight_append_of_ne_nil t (by simp [hsolid]), hsolid,
        List.rdropWhile_concat_neg _ _ _ (by simp [hc])]

theorem stripRight_eq_self_iff {t : Text} :
    stripRight t = t ↔ ∀ c ∈ t.getLast?, isBlank c = false := by
  rw [stripRight_eq_rdropWhile, List.rdropWhile_eq_self_iff]
  constructor
  · intro h c hc
    obtain ⟨hne, rfl⟩ := List.mem_getLast?_eq_getLast hc
    exact Bool.eq_false_iff.mpr (h hne)
  · intro h hne
    exact Bool.eq_false_iff.mp (h _ (List.getLast?_eq_getLast_of_ne_nil hne))

theorem getLast?_of_suffix {t u : Text} {c : Char} (hu : u <:+ t) (h : u.getLast? = some c) :
    t.getLast? = some c := by
  obtain ⟨front, rfl⟩ := hu
  rw [List.getLast?_append, h]
  rfl

/-- The rest of a text with no blank at its end has none either. -/
theorem stripRight_eq_self_of_suffix {t u : Text} (h : stripRight t = t) (hu : u <:+ t) :
    stripRight u = u :=
  stripRight_eq_self_iff.mpr fun c hc => stripRight_eq_self_iff.mp h c (getLast?_of_suffix hu hc)

theorem strip_eq_self_of_head {t : Text} (hhead : ∀ c ∈ t.head?, isBlank c = false)
    (hlast : stripRight t = t) : strip t = t := by
  cases t with
  | nil => rfl
  | cons c t =>
    rw [strip, stripLeft, List.dropWhile_cons_of_neg (by simp [hhead c rfl]), hlast]

theorem head_not_blank_of_strip {t : Text} (h : strip t = t) :
    ∀ c ∈ t.head?, isBlank c = false := by
  intro c hc
  have hne : t ≠ [] := by
    rintro rfl
    exact absurd hc (by simp)
  obtain ⟨d, u, rfl, hd, -⟩ := (isTight_iff t).mp ⟨hne, h⟩
  obtain rfl := Option.some.inj hc
  exact hd

theorem head_stripLeft (t : Text) : ∀ c ∈ (stripLeft t).head?, isBlank c = false := by
  intro c hc
  have hhead := List.head?_dropWhile_not isBlank t
  rw [← stripLeft, Option.mem_def.mp hc] at hhead
  exact hhead

theorem strip_eq_nil_or_isTight (t : Text) : strip t = [] ∨ IsTight (strip t) := by
  have hhead := head_stripLeft t
  unfold strip
  cases h : stripLeft t with
  | nil => exact Or.inl rfl
  | cons c u =>
    have hc : isBlank c = false := hhead c (by rw [h]; rfl)
    have htight := isTight_of_strip hc u
    rw [strip, stripLeft, List.dropWhile_cons_of_neg (by simp [hc])] at htight
    exact Or.inr htight

theorem IsTight.append_space {t u : Text} (ht : IsTight t) (hu : IsTight u) :
    IsTight (t ++ ' ' :: u) := by
  refine ⟨by simp, ?_⟩
  rw [ht.strip_append, hu.stripRight_space]

/-! ## Lines -/

theorem IsLine.of_subset {t u : Text} (ht : IsLine t) (hu : u ⊆ t) : IsLine u :=
  fun c hc => ht c (hu hc)

theorem strip_subset (t : Text) : strip t ⊆ t :=
  List.Subset.trans (stripRight_isPrefix _).subset (List.dropWhile_suffix _).subset

theorem isBlank_of_isLineEnd {c : Char} (h : isLineEnd c = true) : isBlank c = true := by
  unfold isLineEnd at h
  unfold isBlank
  simp at h ⊢
  omega

theorem isLine_of_not_blank {t : Text} (h : ∀ c ∈ t, isBlank c = false) : IsLine t := by
  intro c hc
  cases hend : isLineEnd c with
  | false => rfl
  | true => exact absurd (isBlank_of_isLineEnd hend) (by simp [h c hc])

/-! ## The first word -/

theorem firstField_snd_isSuffix (t : Text) : (firstField t).2 <:+ t :=
  ((List.dropWhile_suffix _).trans (List.dropWhile_suffix _)).trans (List.dropWhile_suffix _)

/-- What follows the first word of a stripped text is stripped. -/
theorem strip_firstField_snd {t : Text} (h : stripRight t = t) :
    strip (firstField t).2 = (firstField t).2 :=
  strip_eq_self_of_head (head_stripLeft _)
    (stripRight_eq_self_of_suffix h (firstField_snd_isSuffix t))

/-- A word and a stripped text behind it are taken apart again. -/
theorem firstField_joinBlank {word rest : Text} (hne : word ≠ [])
    (hword : ∀ c ∈ word, isBlank c = false) (hrest : strip rest = rest) :
    firstField (joinBlank word rest) = (word, rest) := by
  have hall : ∀ c ∈ word, (!isBlank c) = true := fun c hc => by simp [hword c hc]
  have hleft (u : Text) : stripLeft (word ++ u) = word ++ u := by
    obtain ⟨c, v, rfl⟩ := List.exists_cons_of_ne_nil hne
    exact List.dropWhile_cons_of_neg (by simp [hword c List.mem_cons_self])
  cases rest with
  | nil =>
    rw [joinBlank_nil_right, ← List.append_nil word, firstField, hleft,
      List.takeWhile_append_of_pos hall, List.dropWhile_append_of_pos hall]
    rfl
  | cons c rest =>
    have hc := head_not_blank_of_strip hrest c rfl
    have hspace : isBlank ' ' = true := by decide
    rw [joinBlank_of_ne_nil hne (List.cons_ne_nil _ _), firstField, hleft,
      List.takeWhile_append_of_pos hall, List.dropWhile_append_of_pos hall,
      List.takeWhile_cons_of_neg (by simp [hspace]), List.dropWhile_cons_of_neg (by simp [hspace]),
      List.append_nil, stripLeft, List.dropWhile_cons_of_pos hspace,
      List.dropWhile_cons_of_neg (by simp [hc])]

end Drydock.Text
