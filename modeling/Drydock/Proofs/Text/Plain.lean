/-
  Texts without their control sequences. No sequence goes on behind the end of its line, so the
  lines of a text lose theirs one by one (`plain_joinWith_newline`). A line in bold letters loses
  those that make it bold (`plain_bold`), and where there is no escape character nothing is lost
  (`plain_append_of_not_mem`).
-/
import Drydock.Proofs.Text.Number
import Drydock.Report.Style

namespace Drydock.Text

/-! ## Single sequences -/

/-- What stands behind the end of a line is behind any sequence that the line begins with. -/
theorem behindControl?_append_newline (t u : Text) :
    behindControl? (t ++ '\n' :: u) = (behindControl? t).map (· ++ '\n' :: u) := by
  cases t with
  | nil => rfl
  | cons c t =>
    by_cases hc : c = '['
    · subst hc
      simp only [behindControl?, List.cons_append, List.dropWhile_append]
      cases hdrop : t.dropWhile isControlParameter with
      | nil => rfl
      | cons d rest => cases hletter : isAsciiLetter d <;> simp [hletter]
    · simp [behindControl?, hc]

theorem controlSize_append_newline (t u : Text) :
    controlSize (t ++ '\n' :: u) = controlSize t := by
  cases t with
  | nil => rfl
  | cons c t =>
    rw [List.cons_append, controlSize, controlSize, behindControl?_append_newline]
    cases behindControl? t with
    | none => rfl
    | some behind =>
      simp only [Option.map_some, Option.elim_some, List.length_append, List.length_cons]
      split
      · omega
      · rfl

theorem controlSize_le_length (t : Text) : controlSize t ≤ t.length := by
  cases t with
  | nil => exact Nat.le_refl 0
  | cons c t =>
    rw [controlSize]
    split
    · cases behindControl? t with
      | none => exact Nat.zero_le _
      | some behind => exact Nat.sub_le _ _
    · exact Nat.zero_le _

/-! ## Lines -/

theorem plainFrom_append_newline {skip : Nat} {t : Text} (h : skip ≤ t.length) (u : Text) :
    plainFrom skip (t ++ '\n' :: u) = plainFrom skip t ++ '\n' :: plain u := by
  induction t generalizing skip with
  | nil =>
    obtain rfl := Nat.le_zero.mp h
    rfl
  | cons c t ih =>
    cases skip with
    | succ skip => exact ih (Nat.le_of_succ_le_succ h)
    | zero =>
      have hsame := controlSize_append_newline (c :: t) u
      have hle := controlSize_le_length (c :: t)
      rw [List.cons_append] at hsame ⊢
      rw [plainFrom, plainFrom, hsame]
      cases hsize : controlSize (c :: t) with
      | zero => exact congrArg (c :: ·) (ih (Nat.zero_le _))
      | succ size =>
        rw [hsize] at hle
        exact ih (Nat.le_of_succ_le_succ hle)

theorem plain_append_newline (t u : Text) : plain (t ++ '\n' :: u) = plain t ++ '\n' :: plain u :=
  plainFrom_append_newline (Nat.zero_le _) u

/-- Lines lose their control sequences one by one. -/
theorem plain_joinWith_newline (lines : List Text) :
    plain (joinWith ['\n'] lines) = joinWith ['\n'] (lines.map plain) := by
  induction lines with
  | nil => rfl
  | cons line lines ih =>
    cases lines with
    | nil => rfl
    | cons next lines =>
      rw [joinWith_cons_cons, List.append_assoc, List.singleton_append, plain_append_newline, ih]
      simp only [List.map_cons, joinWith_cons_cons, List.append_assoc, List.singleton_append]

/-! ## Bold letters -/

theorem plain_cons {c : Char} (h : c ≠ Colour.escape) (t : Text) :
    plain (c :: t) = c :: plain t := by
  rw [plain, plainFrom, controlSize, if_neg h]
  rfl

/-- Nothing is lost in front of the first escape character. -/
theorem plain_append_of_not_mem {t : Text} (h : Colour.escape ∉ t) (u : Text) :
    plain (t ++ u) = t ++ plain u := by
  induction t with
  | nil => rfl
  | cons c t ih =>
    obtain ⟨hc, ht⟩ := List.ne_and_not_mem_of_not_mem_cons h
    rw [List.cons_append, plain_cons (Ne.symm hc), ih ht, List.cons_append]

theorem plain_of_not_mem {t : Text} (h : Colour.escape ∉ t) : plain t = t := by
  have hall := plain_append_of_not_mem h []
  rwa [List.append_nil, show plain [] = [] from rfl, List.append_nil] at hall

theorem plainFrom_length_append (t u : Text) : plainFrom t.length (t ++ u) = plain u := by
  induction t with
  | nil => rfl
  | cons c t ih => exact ih

/-- The control sequence with a number is lost. -/
theorem plain_control_append (code : Nat) (t : Text) :
    plain (Colour.control code ++ t) = plain t := by
  have hdigits : ∀ c ∈ ofNat code, isControlParameter c = true := fun c hc => by
    rw [isControlParameter, isAsciiDigit_of_mem_ofNat hc]
    rfl
  have hbehind : behindControl? ('[' :: (ofNat code ++ ['m']) ++ t) = some t := by
    rw [List.cons_append, List.append_assoc, behindControl?, List.dropWhile_append_of_pos hdigits]
    rfl
  have hsize : controlSize (Colour.control code ++ t) = (Colour.control code).length := by
    rw [Colour.control, List.cons_append, controlSize, if_pos rfl, hbehind, Option.elim_some,
      ← List.cons_append, List.length_append]
    omega
  rw [Colour.control] at hsize ⊢
  rw [plain, List.cons_append, plainFrom, ← List.cons_append, hsize]
  exact plainFrom_length_append _ t

/-- A text in bold letters loses what makes it bold. -/
theorem plain_bold (c : Colour) {t : Text} (h : Colour.escape ∉ t) : plain (c.bold t) = t := by
  have hend : plain (Colour.control 0) = [] := rfl
  rw [Colour.bold, List.append_assoc, List.append_assoc, plain_control_append,
    plain_control_append, plain_append_of_not_mem h, hend, List.append_nil]

end Drydock.Text
