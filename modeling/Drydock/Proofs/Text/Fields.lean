/-
  Words between blanks. A text without blanks is one word, so words joined by single spaces are
  taken apart into just these words (`fields_joinWith`); joined, they are a stripped text on one
  line, which begins as the first of them does and ends as the last.
-/
import Drydock.Proofs.Text.Word

namespace Drydock

/-- What no split takes away from the front stays with the first piece. -/
theorem splitWhere_append_of_neg {α : Type} {p : α → Bool} {front : List α}
    (h : ∀ a ∈ front, p a = false) {l piece : List α} {rest : List (List α)}
    (hl : splitWhere p l = piece :: rest) :
    splitWhere p (front ++ l) = (front ++ piece) :: rest := by
  induction front with
  | nil => exact hl
  | cons a front ih =>
    obtain ⟨ha, hfront⟩ := List.forall_mem_cons.mp h
    rw [List.cons_append, splitWhere, ih hfront, ha]
    rfl

namespace Text

/-- A text that is not empty and that has no blanks. -/
structure IsWord (w : Text) : Prop where
  ne_nil : w ≠ []
  solid : ∀ c ∈ w, isBlank c = false

theorem isWord_iff (w : Text) : IsWord w ↔ w ≠ [] ∧ w.all (fun c => !isBlank c) = true := by
  simp only [List.all_eq_true, Bool.not_eq_true']
  exact ⟨fun h => ⟨h.ne_nil, h.solid⟩, fun h => ⟨h.1, h.2⟩⟩

instance (w : Text) : Decidable (IsWord w) := decidable_of_iff' _ (isWord_iff w)

theorem IsWord.isTight {w : Text} (h : IsWord w) : IsTight w :=
  ⟨h.ne_nil, strip_eq_self_of_head (fun c hc => h.solid c (List.mem_of_mem_head? hc))
    (stripRight_of_no_blank h.solid)⟩

theorem IsWord.isLine {w : Text} (h : IsWord w) : IsLine w := isLine_of_not_blank h.solid

/-- A word at the front of a text is the front of the first word of the text. -/
theorem exists_fields_append {w : Text} (h : IsWord w) (t : Text) :
    ∃ more rest, fields (w ++ t) = (w ++ more) :: rest := by
  obtain ⟨piece, pieces, ht⟩ := List.exists_cons_of_ne_nil (splitWhere_ne_nil isBlank t)
  refine ⟨piece, pieces.filter fun word => !word.isEmpty, ?_⟩
  rw [fields, splitWhere_append_of_neg h.solid ht, List.filter_cons_of_pos (by simp [h.ne_nil])]

/-- What stands behind blanks and has none itself is the front of a word of the text. -/
theorem exists_mem_fields {front w : Text} (hfront : ∀ c ∈ front.getLast?, isBlank c = true)
    (h : IsWord w) (t : Text) : ∃ more, w ++ more ∈ fields (front ++ (w ++ t)) := by
  obtain ⟨more, rest, hfields⟩ := exists_fields_append h t
  have hmem : w ++ more ∈ fields (w ++ t) := hfields ▸ List.mem_cons_self
  refine ⟨more, ?_⟩
  rcases List.eq_nil_or_concat front with rfl | ⟨front, c, rfl⟩
  · exact hmem
  · rw [List.concat_eq_append] at hfront ⊢
    have hc : isBlank c = true := hfront c (by rw [List.getLast?_concat]; rfl)
    rw [List.append_assoc, List.singleton_append, fields_append_blank hc]
    exact List.mem_append_right _ hmem

theorem fields_of_isWord {w : Text} (h : IsWord w) : fields w = [w] := by
  have hsplit : splitWhere isBlank (w ++ []) = (w ++ []) :: [] :=
    splitWhere_append_of_neg h.solid rfl
  rw [List.append_nil] at hsplit
  rw [fields, hsplit, List.filter_cons_of_pos (by simp [h.ne_nil]), List.filter_nil]

/-! ## Joined words -/

section Joined

variable {words : List Text}

theorem joinWith_space_cons (w next : Text) (rest : List Text) :
    joinWith " " (w :: next :: rest) = w ++ ' ' :: joinWith " " (next :: rest) := by
  rw [joinWith_cons_cons, List.append_assoc]
  rfl

theorem fields_joinWith (h : ∀ w ∈ words, IsWord w) : fields (joinWith " " words) = words := by
  induction words with
  | nil => rfl
  | cons w rest ih =>
    obtain ⟨hw, hrest⟩ := List.forall_mem_cons.mp h
    cases rest with
    | nil => exact fields_of_isWord hw
    | cons next rest =>
      rw [joinWith_space_cons, fields_append_blank (by decide), fields_of_isWord hw, ih hrest,
        List.singleton_append]

theorem isTight_joinWith (h : ∀ w ∈ words, IsWord w) (hne : words ≠ []) :
    IsTight (joinWith " " words) := by
  induction words with
  | nil => exact absurd rfl hne
  | cons w rest ih =>
    obtain ⟨hw, hrest⟩ := List.forall_mem_cons.mp h
    cases rest with
    | nil => exact hw.isTight
    | cons next rest =>
      rw [joinWith_space_cons]
      exact hw.isTight.append_space (ih hrest (by simp))

theorem isLine_joinWith (h : ∀ w ∈ words, IsWord w) : IsLine (joinWith " " words) := by
  induction words with
  | nil => exact fun c hc => absurd hc List.not_mem_nil
  | cons w rest ih =>
    obtain ⟨hw, hrest⟩ := List.forall_mem_cons.mp h
    cases rest with
    | nil => exact hw.isLine
    | cons next rest =>
      rw [joinWith_space_cons]
      exact hw.isLine.append (isLine_cons.mpr ⟨by decide, ih hrest⟩)

theorem getLast?_joinWith (h : ∀ w ∈ words, IsWord w) :
    (joinWith " " words).getLast? = words.getLast?.bind List.getLast? := by
  induction words with
  | nil => rfl
  | cons w rest ih =>
    obtain ⟨hw, hrest⟩ := List.forall_mem_cons.mp h
    cases rest with
    | nil => rfl
    | cons next rest =>
      have hjoined : joinWith " " (next :: rest) ≠ [] := (isTight_joinWith hrest (by simp)).1
      rw [joinWith_space_cons, List.getLast?_append_of_ne_nil _ (by simp),
        ← List.singleton_append, List.getLast?_append_of_ne_nil _ hjoined, ih hrest,
        List.getLast?_cons_cons]

theorem exists_joinWith_eq (w : Text) (rest : List Text) :
    ∃ t, joinWith " " (w :: rest) = w ++ t := by
  cases rest with
  | nil => exact ⟨[], (List.append_nil w).symm⟩
  | cons next rest => exact ⟨_, joinWith_space_cons w next rest⟩

end Joined

end Text

end Drydock
