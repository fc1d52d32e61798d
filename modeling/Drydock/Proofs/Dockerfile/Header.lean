/-
  What the directives take. A line that is no directive ends the header, and a directive goes on
  with it or is refused, whatever stands around it (`read_cons_cases`). Hence a header is found by
  its own lines and the one behind them, and its lines are the directives at the top
  (`directives_of_read`).
-/
import Drydock.Dockerfile.Continuation
import Drydock.Dockerfile.Directive

namespace Drydock.Header

theorem isCommentLine_of_directive {line : Text} {d : Directive}
    (h : Directive.read? (Text.strip line) = some d) : isCommentLine line = true := by
  unfold Directive.read? at h
  unfold isCommentLine
  split at h
  · rename_i t hline
    simp [hline]
  · exact absurd h (by simp)

/-- The directive on a line, if the parser knows its name. -/
def directive? (line : Text) : Option Directive :=
  (Directive.read? (Text.strip line)).filter fun d => Directive.known.contains d.name

theorem directive?_eq_some_iff {line : Text} {d : Directive} : directive? line = some d ↔
    Directive.read? (Text.strip line) = some d ∧ Directive.known.contains d.name = true :=
  Option.filter_eq_some_iff

theorem read_cons_of_none {line : Text} (h : directive? line = none) (escape : Escape) (n : Nat)
    (rest : List Text) : read escape n (line :: rest) = .ok ⟨escape, n⟩ := by
  rw [read]
  cases hd : Directive.read? (Text.strip line) with
  | none => rfl
  | some d =>
    have hknown : Directive.known.contains d.name = false := by
      rw [directive?, hd] at h
      simpa using h
    dsimp only
    rw [hknown, if_pos (by rfl)]

/-- A directive is refused or goes on with the header, whatever stands around it. -/
theorem read_cons_of_some {line : Text} {d : Directive} (h : directive? line = some d) :
    (∃ value, ∀ escape n rest,
      read escape n (line :: rest) = .error ⟨n + 1, .invalidEscape value⟩) ∨
    ∃ next : Escape → Escape, ∀ escape n rest,
      read escape n (line :: rest) = read (next escape) (n + 1) rest := by
  obtain ⟨hd, hknown⟩ := directive?_eq_some_iff.mp h
  by_cases hname : d.name = "escape".toList
  · cases hchosen : Escape.ofText? d.value with
    | none =>
      refine Or.inl ⟨d.value, fun escape n rest => ?_⟩
      rw [read, hd]
      dsimp only
      rw [hknown, if_neg (by decide), if_pos hname, hchosen]
    | some chosen =>
      refine Or.inr ⟨fun _ => chosen, fun escape n rest => ?_⟩
      rw [read, hd]
      dsimp only
      rw [hknown, if_neg (by decide), if_pos hname, hchosen]
  · refine Or.inr ⟨id, fun escape n rest => ?_⟩
    rw [read, hd]
    dsimp only
    rw [hknown, if_neg (by decide), if_neg hname, id]

/-- A line ends the header, or it is a comment that is refused or goes on with the header. -/
theorem read_cons_cases (line : Text) :
    (∀ escape n rest, read escape n (line :: rest) = .ok ⟨escape, n⟩) ∨
    (isCommentLine line = true ∧ ∃ value, ∀ escape n rest,
      read escape n (line :: rest) = .error ⟨n + 1, .invalidEscape value⟩) ∨
    (isCommentLine line = true ∧ ∃ next : Escape → Escape, ∀ escape n rest,
      read escape n (line :: rest) = read (next escape) (n + 1) rest) := by
  cases hd : directive? line with
  | none => exact Or.inl (read_cons_of_none hd)
  | some d =>
    have hline := isCommentLine_of_directive (directive?_eq_some_iff.mp hd).1
    exact Or.inr ((read_cons_of_some hd).imp (⟨hline, ·⟩) (⟨hline, ·⟩))

theorem read_cons_of_not_comment {line : Text} (h : isCommentLine line = false) (escape : Escape)
    (n : Nat) (rest : List Text) : read escape n (line :: rest) = .ok ⟨escape, n⟩ := by
  rcases read_cons_cases line with hstop | ⟨hline, -⟩ | ⟨hline, -⟩
  · exact hstop escape n rest
  · exact absurd hline (by simp [h])
  · exact absurd hline (by simp [h])

variable {escape : Escape} {n : Nat} {lines : List Text} {header : Header} {e : ParseError}

/-! ## Headers that are read -/

/-- A header begins behind the lines read before and ends with the text at the latest. -/
theorem size_bounds (h : read escape n lines = .ok header) :
    n ≤ header.size ∧ header.size ≤ n + lines.length := by
  induction lines generalizing escape n with
  | nil =>
    obtain rfl := Except.ok.inj h
    exact ⟨Nat.le_refl _, Nat.le_refl _⟩
  | cons line rest ih =>
    rcases read_cons_cases line with hstop | ⟨-, value, herr⟩ | ⟨-, next, hnext⟩
    · rw [hstop] at h
      obtain rfl := Except.ok.inj h
      exact ⟨Nat.le_refl _, Nat.le_add_right _ _⟩
    · exact absurd (herr escape n rest ▸ h) (by simp)
    · rw [hnext] at h
      have := ih h
      rw [List.length_cons]
      omega

/-- The lines of a header are directives, and the line behind it is none. -/
theorem directives_of_read (h : read escape n lines = .ok header) :
    (∀ line ∈ lines.take (header.size - n), (directive? line).isSome = true) ∧
      ∀ line ∈ (lines.drop (header.size - n)).head?, directive? line = none := by
  induction lines generalizing escape n with
  | nil => simp
  | cons first rest ih =>
    cases hd : directive? first with
    | none =>
      obtain rfl := Except.ok.inj ((read_cons_of_none hd escape n rest).symm.trans h)
      simp [hd]
    | some d =>
      rcases read_cons_of_some hd with ⟨value, herr⟩ | ⟨next, hnext⟩
      · exact absurd (herr escape n rest ▸ h) (by simp)
      · rw [hnext] at h
        have hle := (size_bounds h).1
        obtain ⟨hlines, hbehind⟩ := ih h
        rw [show header.size - n = (header.size - (n + 1)) + 1 by omega, List.take_succ_cons,
          List.drop_succ_cons]
        refine ⟨fun line hline => ?_, hbehind⟩
        rcases List.mem_cons.mp hline with rfl | hline
        · rw [hd, Option.isSome_some]
        · exact hlines line hline

/-- All lines of a header are comments. -/
theorem isCommentLine_of_mem_take (h : read escape n lines = .ok header) :
    ∀ line ∈ lines.take (header.size - n), isCommentLine line = true := by
  intro line hline
  obtain ⟨d, hd⟩ := Option.isSome_iff_exists.mp ((directives_of_read h).1 line hline)
  exact isCommentLine_of_directive (directive?_eq_some_iff.mp hd).1

/-- A header that ends before the text does, or before a line that is no comment, ends there too
if more text follows. -/
theorem read_append (h : read escape n lines = .ok header) {more : List Text}
    (hstop : header.size < n + lines.length ∨
      ∀ line ∈ more.head?, isCommentLine line = false) :
    read escape n (lines ++ more) = .ok header := by
  induction lines generalizing escape n with
  | nil =>
    have hmore : ∀ line ∈ more.head?, isCommentLine line = false := by
      obtain rfl := Except.ok.inj h
      rcases hstop with hlt | hmore
      · exact absurd hlt (Nat.lt_irrefl _)
      · exact hmore
    cases more with
    | nil => exact h
    | cons line more =>
      rw [List.nil_append, read_cons_of_not_comment (hmore line rfl)]
      exact h
  | cons line rest ih =>
    rw [List.cons_append]
    rcases read_cons_cases line with hend | ⟨-, value, herr⟩ | ⟨-, next, hnext⟩
    · rw [hend] at h ⊢
      exact h
    · exact absurd (herr escape n rest ▸ h) (by simp)
    · rw [hnext] at h ⊢
      refine ih h (hstop.imp_left fun hlt => ?_)
      rw [List.length_cons] at hlt
      omega

/-- A header is found in any part of the text that holds it. -/
theorem read_take (h : read escape n lines = .ok header) {k : Nat} (hk : header.size ≤ n + k) :
    read escape n (lines.take k) = .ok header := by
  induction lines generalizing escape n k with
  | nil =>
    rw [List.take_nil]
    exact h
  | cons line rest ih =>
    rcases read_cons_cases line with hend | ⟨-, value, herr⟩ | ⟨-, next, hnext⟩
    · rw [hend] at h
      cases k with
      | zero => exact h
      | succ k =>
        rw [List.take_succ_cons, hend]
        exact h
    · exact absurd (herr escape n rest ▸ h) (by simp)
    · rw [hnext] at h
      have hle := (size_bounds h).1
      cases k with
      | zero => omega
      | succ k =>
        rw [List.take_succ_cons, hnext]
        exact ih h (by omega)

/-! ## Headers that are refused -/

/-- A faulty directive is found whatever follows. -/
theorem read_append_of_error (h : read escape n lines = .error e) (more : List Text) :
    read escape n (lines ++ more) = .error e := by
  induction lines generalizing escape n with
  | nil => exact absurd h (by simp [read])
  | cons line rest ih =>
    rw [List.cons_append]
    rcases read_cons_cases line with hend | ⟨-, value, herr⟩ | ⟨-, next, hnext⟩
    · exact absurd (hend escape n rest ▸ h) (by simp)
    · rw [herr] at h ⊢
      exact h
    · rw [hnext] at h ⊢
      exact ih h

/-- A faulty directive is a comment at its own line, and the lines before it are a header. -/
theorem exists_of_error (h : read escape n lines = .error e) :
    ∃ k line value chosen, e = ⟨n + k + 1, .invalidEscape value⟩ ∧ lines[k]? = some line ∧
      isCommentLine line = true ∧ read escape n (lines.take k) = .ok ⟨chosen, n + k⟩ := by
  induction lines generalizing escape n with
  | nil => exact absurd h (by simp [read])
  | cons line rest ih =>
    rcases read_cons_cases line with hend | ⟨hline, value, herr⟩ | ⟨-, next, hnext⟩
    · exact absurd (hend escape n rest ▸ h) (by simp)
    · rw [herr] at h
      exact ⟨0, line, value, escape, (Except.error.inj h).symm, rfl, hline, rfl⟩
    · rw [hnext] at h
      obtain ⟨k, found, value, chosen, rfl, hk, hfound, hread⟩ := ih h
      refine ⟨k + 1, found, value, chosen, ?_, hk, hfound, ?_⟩
      · rw [Nat.add_right_comm n 1 k, Nat.add_assoc n k 1]
      · rw [List.take_succ_cons, hnext, hread, Nat.add_right_comm n 1 k, Nat.add_assoc n k 1]

end Drydock.Header
