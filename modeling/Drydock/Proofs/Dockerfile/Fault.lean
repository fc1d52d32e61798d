/-
  Where a fault is. A faulty text is faulty at one of its lines: that line is not blank, and the lines
  before it are a Dockerfile by themselves. A fault that is not about the end of the text is the same
  whatever follows the text (`parse_error_local`).
-/
import Drydock.Proofs.Dockerfile.Concatenation
import Drydock.Proofs.Dockerfile.Layout

namespace Drydock.Dockerfile

/-! ## Faults of a run -/

/-- A run fails at a line that begins a step, and the lines before that are a run that succeeds. -/
theorem readStatements_error {escape : Char} {n : Nat} {flag : Bool} {lines : List Text}
    {e : ParseError} (h : readStatements escape n flag lines = .error e) :
    ∃ k line before, e.line = n + k + 1 ∧ lines[k]? = some line ∧ isSkippedLine line = false ∧
      readStatements escape n flag (lines.take k) = .ok before ∧
      (e.cause.isUnterminated = false →
        ∀ more, readStatements escape n flag (lines ++ more) = .error e) := by
  induction n, flag, lines using run_induction escape with
  | nil n flag =>
    rw [readStatements_nil] at h
    exact absurd h (by simp)
  | skip n flag line rest hs ih =>
    rw [readStatements_skip hs] at h
    obtain ⟨k, bad, before, hline, hk, hbad, hbefore, hmore⟩ := ih h
    refine ⟨k + 1, bad, before, by omega, hk, hbad, ?_, fun hc more => ?_⟩
    · rw [List.take_succ_cons, readStatements_skip hs, hbefore]
    · rw [List.cons_append, readStatements_skip hs, hmore hc more]
  | fault n flag line rest cause hs hr =>
    rw [readStatements_fault hs hr] at h
    obtain rfl := Except.error.inj h
    refine ⟨0, line, [], rfl, rfl, hs, ?_, fun hc more => ?_⟩
    · rw [List.take_zero, readStatements_nil]
    · rw [List.cons_append, readStatements_fault hs (Reading.read_append_of_error hr hc more)]
  | step n flag line rest r hs hr ih =>
    rw [readStatements_step hs hr] at h
    obtain ⟨k, bad, before, hline, hk, hbad, hbefore, hmore⟩ := ih (eq_error_of_map h)
    have hle := Reading.extra_le hr
    rw [List.getElem?_drop] at hk
    refine ⟨r.extra + k + 1, bad, r.place n flag :: before, by omega, hk, hbad, ?_,
      fun hc more => ?_⟩
    · have hr' : Reading.read escape (Text.strip line) (rest.take (r.extra + k)) = .ok r :=
        Reading.read_congr hr
          (by rw [List.take_take, Nat.min_eq_left (Nat.le_add_right _ _)])
      rw [List.take_succ_cons, readStatements_step hs hr', List.drop_take, Nat.add_sub_cancel_left,
        hbefore]
      rfl
    · have hr' := Reading.read_append hr more
      rw [List.cons_append, readStatements_step hs hr', List.drop_append_of_le_length hle,
        hmore hc more]
      rfl

/-! ## Faults of lines -/

theorem strip_ne_nil_of_comment {line : Text} (h : isCommentLine line = true) :
    Text.strip line ≠ [] := by
  intro hnil
  unfold isCommentLine at h
  rw [hnil] at h
  exact absurd h (by simp)

theorem strip_ne_nil_of_solid {line : Text} (h : isSkippedLine line = false) :
    Text.strip line ≠ [] := by
  intro hnil
  unfold isSkippedLine at h
  rw [hnil] at h
  exact absurd h (by simp)

/-- Lines are faulty at a line that is not blank, and those before it are a Dockerfile. -/
theorem ofLines_error {lines : List Text} {e : ParseError} (h : ofLines lines = .error e) :
    ∃ k line, e.line = k + 1 ∧ lines[k]? = some line ∧ Text.strip line ≠ [] ∧
      (∃ d, ofLines (lines.take k) = .ok d) ∧
      (e.cause.isUnterminated = false → ∀ more, ofLines (lines ++ more) = .error e) := by
  cases hh : Header.read .backslash 0 lines with
  | error e' =>
    rw [ofLines_of_header_error hh] at h
    obtain rfl := Except.error.inj h
    obtain ⟨k, line, value, chosen, rfl, hk, hline, hread⟩ := Header.exists_of_error hh
    refine ⟨k, line, by rw [Nat.zero_add], hk, strip_ne_nil_of_comment hline, ?_, fun _ more => ?_⟩
    · -- The lines before the faulty directive are a header with nothing behind it.
      refine ⟨_, ofLines_eq_ok_iff.mpr ⟨_, [], hread, ?_, rfl⟩⟩
      have hle : (lines.take k).length ≤ 0 + k := by
        rw [List.length_take]
        omega
      rw [List.drop_of_length_le hle, readStatements_nil]
    · exact ofLines_of_header_error (Header.read_append_of_error hh more)
  | ok header =>
    rw [ofLines_of_header hh] at h
    obtain ⟨k, line, before, hplace, hk, hline, hbefore, hmore⟩ :=
      readStatements_error (eq_error_of_map h)
    rw [List.getElem?_drop] at hk
    refine ⟨header.size + k, line, hplace, hk, strip_ne_nil_of_solid hline, ?_, fun hc more => ?_⟩
    · refine ⟨_, ofLines_eq_ok_iff.mpr ⟨header, before, Header.read_take hh (by omega), ?_, rfl⟩⟩
      rw [List.drop_take, Nat.add_sub_cancel_left]
      exact hbefore
    · have hlt : header.size + k < lines.length := (List.getElem?_eq_some_iff.mp hk).1
      rw [ofLines_of_header (Header.read_append hh (Or.inl (by omega))),
        List.drop_append_of_le_length (by omega), hmore hc more]
      rfl

/-! ## Faulty steps -/

section Step

variable {front lines rest : List Text} {line : Text} {before : Dockerfile}

/-- Behind lines that are read, a faulty step is the fault of all lines. -/
theorem ofLines_fault (hfront : ofLines front = .ok before) (hs : isSkippedLine line = false)
    {cause : ParseCause}
    (hread : Reading.read before.escape.char (Text.strip line) rest = .error cause) :
    ofLines (front ++ line :: rest) = .error ⟨front.length + 1, cause⟩ := by
  obtain ⟨flag, -, hmore⟩ := exists_ofLines_append hfront
  have hcomment : ∀ other ∈ (line :: rest).head?, isCommentLine other = false := by
    intro other ho
    obtain rfl := Option.some.inj ho
    exact not_isCommentLine_of_solid hs
  rw [hmore _ hcomment, readStatements_fault hs hread]
  rfl

/-- The line on which a run fails begins a step that is faulty itself. -/
theorem exists_read_of_readStatements_error {escape : Char} {n : Nat} {flag : Bool} {e : ParseError}
    (h : readStatements escape n flag lines = .error e) :
    ∃ k line rest, e.line = n + k + 1 ∧ lines.drop k = line :: rest ∧
      isSkippedLine line = false ∧ Reading.read escape (Text.strip line) rest = .error e.cause ∧
      ∃ before, readStatements escape n flag (lines.take k) = .ok before := by
  obtain ⟨k, line, before, hplace, hk, hs, hbefore, -⟩ := readStatements_error h
  obtain ⟨hlt, hline⟩ := List.getElem?_eq_some_iff.mp hk
  have hdrop : lines.drop k = line :: lines.drop (k + 1) := by
    rw [List.drop_eq_getElem_cons hlt, hline]
  refine ⟨k, line, lines.drop (k + 1), hplace, hdrop, hs, ?_, before, hbefore⟩
  -- The run behind the lines before it fails right there, so the step is not read.
  have hlength : (lines.take k).length = k := by
    rw [List.length_take]
    omega
  have hrun := readStatements_append hbefore (line :: lines.drop (k + 1))
  rw [← hdrop, List.take_append_drop, h, hdrop, hlength] at hrun
  have hstep := eq_error_of_map hrun.symm
  cases hread : Reading.read escape (Text.strip line) (lines.drop (k + 1)) with
  | error cause =>
    rw [readStatements_fault hs hread] at hstep
    rw [← Except.error.inj hstep]
  | ok r =>
    rw [readStatements_step hs hread] at hstep
    obtain ⟨m, -, -, hlater, -⟩ := readStatements_error (eq_error_of_map hstep)
    omega

/-- Lines that are faulty have a directive that is, or a step behind lines that are read. -/
theorem exists_read_of_ofLines_error {e : ParseError} (h : ofLines lines = .error e) :
    (∃ value, e.cause = .invalidEscape value) ∨
    ∃ front line rest before, lines = front ++ line :: rest ∧ ofLines front = .ok before ∧
      isSkippedLine line = false ∧ e.line = front.length + 1 ∧
      Reading.read before.escape.char (Text.strip line) rest = .error e.cause := by
  cases hh : Header.read .backslash 0 lines with
  | error e' =>
    rw [ofLines_of_header_error hh] at h
    obtain rfl := Except.error.inj h
    obtain ⟨k, line, value, chosen, rfl, -⟩ := Header.exists_of_error hh
    exact Or.inl ⟨value, rfl⟩
  | ok header =>
    rw [ofLines_of_header hh] at h
    obtain ⟨k, line, rest, hplace, hdrop, hs, hread, before, hbefore⟩ :=
      exists_read_of_readStatements_error (eq_error_of_map h)
    rw [List.drop_drop] at hdrop
    have hlt : header.size + k < lines.length := by
      by_contra hle
      rw [List.drop_of_length_le (Nat.le_of_not_lt hle)] at hdrop
      exact absurd hdrop (by simp)
    refine Or.inr ⟨lines.take (header.size + k), line, rest, ofStatements header.escape before,
      ?_, ?_, hs, ?_, hread⟩
    · rw [← hdrop, List.take_append_drop]
    · refine ofLines_eq_ok_iff.mpr ⟨header, before, Header.read_take hh (by omega), ?_, rfl⟩
      rw [List.drop_take, Nat.add_sub_cancel_left]
      exact hbefore
    · rw [List.length_take]
      omega

end Step

/-! ## Faults of texts -/

/-- Joined lines begin with a mark only if the first of them does. -/
theorem head_joinWith_ne_mark {e : Text} (he : e ∈ Text.lineEnds) {lines : List Text}
    (hmark : ∀ u ∈ lines.head?, u.head? ≠ some mark) :
    (Text.joinWith e lines).head? ≠ some mark := by
  have hend : ∀ t : Text, (e ++ t).head? ≠ some mark := by
    intro t
    rcases Text.lineEnd_cases he with rfl | ⟨c, rfl, hc⟩
    · exact fun h => absurd (Option.some.inj h) (by decide)
    · rintro ⟨rfl⟩
      exact absurd hc (by decide)
  match lines with
  | [] => exact fun h => absurd h (by simp)
  | [u] => exact hmark u rfl
  | [] :: v :: rest =>
    rw [Text.joinWith_cons_cons, List.nil_append]
    exact hend _
  | (c :: u) :: v :: rest => exact hmark (c :: u) rfl

/-- Lines joined to a text by an end of a line are read as these lines. -/
theorem parse_joinWith_lineEnd {e : Text} (he : e ∈ Text.lineEnds) {lines : List Text}
    (hlines : ∀ u ∈ lines, Text.IsLine u) (hmark : ∀ u ∈ lines.head?, u.head? ≠ some mark) :
    parse (Text.joinWith e lines) = ofLines lines := by
  rw [parse, physicalLines, withoutMark_of_head (head_joinWith_ne_mark he hmark)]
  rcases Text.lines_joinWith_lineEnd he lines hlines with h | h
  · rw [h]
  · rw [← ofLines_append_empty, h]

theorem parse_joinWith_newline {lines : List Text} (hlines : ∀ u ∈ lines, Text.IsLine u)
    (hmark : ∀ u ∈ lines.head?, u.head? ≠ some mark) :
    parse (Text.joinWith ['\n'] lines) = ofLines lines :=
  parse_joinWith_lineEnd (by decide) hlines hmark

/-- Text behind a line feed adds physical lines and changes none. -/
theorem exists_physicalLines_append_newline {t : Text} (ht : t ≠ []) (x : Text) :
    ∃ more, physicalLines (t ++ '\n' :: x) = physicalLines t ++ more := by
  unfold physicalLines
  rw [withoutMark_append ht]
  exact Text.exists_lines_append_newline _ x

/-- A fault is at a line that is not blank; the lines before it are a Dockerfile whose steps end
before it; and unless the text has ended too early, no text behind it makes a difference. -/
theorem parse_error_local (t : Text) (e : ParseError) (hmark : t.head? ≠ some mark)
    (h : parse t = .error e) :
    1 ≤ e.line ∧ e.line ≤ (physicalLines t).length ∧
    (∃ line, (physicalLines t)[e.line - 1]? = some line ∧ Text.strip line ≠ []) ∧
    (∃ d, parse (Text.joinWith ['\n'] ((physicalLines t).take (e.line - 1))) = .ok d ∧
      ∀ i ∈ d.instructions, i.endLine < e.line) ∧
    (Text.startsWith e.cause.reason "unterminated" = false →
      ∀ x : Text, parse (t ++ '\n' :: x) = .error e) := by
  obtain ⟨k, line, hplace, hk, hline, ⟨d, hd⟩, hmore⟩ := ofLines_error h
  have hlt : k < (physicalLines t).length := (List.getElem?_eq_some_iff.mp hk).1
  rw [hplace, Nat.add_sub_cancel]
  refine ⟨Nat.succ_pos k, hlt, ⟨line, hk, hline⟩, ⟨d, ?_, fun i hi => ?_⟩, fun hc x => ?_⟩
  · have hlines : ∀ u ∈ (physicalLines t).take k, Text.IsLine u :=
      fun u hu => Text.isLine_of_mem_lines (List.mem_of_mem_take hu)
    have hhead : ∀ u ∈ ((physicalLines t).take k).head?, u.head? ≠ some mark := by
      intro u hu
      rw [List.head?_take] at hu
      split at hu
      · exact absurd hu (by simp)
      · unfold physicalLines at hu
        rw [withoutMark_of_head hmark] at hu
        rcases Text.head_of_mem_head_lines hu with rfl | hu
        · exact fun h => absurd h (by simp)
        · rw [hu]
          exact hmark
    rw [parse_joinWith_newline hlines hhead, hd]
  · have hinside := (layout_ofLines hd).inside i hi
    rw [List.length_take] at hinside
    omega
  · have ht : t ≠ [] := by
      rintro rfl
      exact absurd hlt (Nat.not_lt_zero k)
    obtain ⟨more, hphysical⟩ := exists_physicalLines_append_newline ht x
    rw [ParseCause.startsWith_reason] at hc
    unfold parse
    rw [hphysical]
    exact hmore hc more

/-- The second step names no base image; what stands behind it is not looked at. -/
theorem parse_error_local_of_missing_base :
    parse "FROM a\n\nFROM --x\nRUN <<E" = .error ⟨3, .missingBaseImage⟩ ∧
      parse ("FROM a\n\nFROM --x\nRUN <<E" ++ '\n' :: "E\nUSER") =
        .error ⟨3, .missingBaseImage⟩ := by
  have h : parse "FROM a\n\nFROM --x\nRUN <<E" = .error ⟨3, .missingBaseImage⟩ := by
    decide +kernel
  exact ⟨h, (parse_error_local _ _ (by decide) h).2.2.2.2 (by decide) _⟩

end Drydock.Dockerfile
