/-
  Where steps come from. Every step of a run is the reading of one of its lines together with lines
  below that, and it knows of the line above only whether this is a comment (`exists_place_of_mem`);
  so what holds of all readings holds of all steps. The warnings are about the steps whose keyword
  no builder knows, one for each and in their order (`subject_warnings_ofLines`).
-/
import Drydock.Proofs.Dockerfile.Run

namespace Drydock

/-- What a warning is about: a line, and an opcode that no builder knows. -/
def UnknownKeyword.subject (w : UnknownKeyword) : Nat × Opcode :=
  (w.line, Dockerfile.opcodeOf w.keyword)

namespace Dockerfile

variable {escape : Char} {n : Nat} {flag : Bool} {lines : List Text} {statements : List Statement}

/-- Every statement of a run is the reading of one of its lines together with the lines below that;
it is commented just if the line above, if there is one, is a comment. -/
theorem exists_place_of_mem (h : readStatements escape n flag lines = .ok statements)
    {s : Statement} (hs : s ∈ statements) :
    ∃ k line rest r, lines.drop k = line :: rest ∧ isSkippedLine line = false ∧
      Reading.read escape (Text.strip line) rest = .ok r ∧
      s = r.place (n + k) (endsInComment flag (lines.take k)) := by
  induction n, flag, lines using run_induction escape generalizing statements with
  | nil n flag =>
    rw [readStatements_nil] at h
    obtain rfl := Except.ok.inj h
    exact absurd hs List.not_mem_nil
  | skip n flag line rest hskip ih =>
    rw [readStatements_skip hskip] at h
    obtain ⟨k, other, below, r, hdrop, hsolid, hr, rfl⟩ := ih h hs
    refine ⟨k + 1, other, below, r, hdrop, hsolid, hr, ?_⟩
    rw [List.take_succ_cons, endsInComment_cons, Nat.add_right_comm n 1 k, Nat.add_assoc n k 1]
  | fault n flag line rest cause hsolid hr =>
    rw [readStatements_fault hsolid hr] at h
    exact absurd h (by simp)
  | step n flag line rest r hsolid hr ih =>
    rw [readStatements_step hsolid hr] at h
    obtain ⟨tail, htail, rfl⟩ := exists_of_map_eq_ok h
    rcases List.mem_cons.mp hs with rfl | hs
    · exact ⟨0, line, rest, r, rfl, hsolid, hr, rfl⟩
    · obtain ⟨k, other, below, r', hdrop, hsolid', hr', rfl⟩ := ih htail hs
      rw [List.drop_drop] at hdrop
      refine ⟨r.extra + k + 1, other, below, r', hdrop, hsolid', hr', ?_⟩
      -- The step above ends on a line that is no comment, so that only lines below it count.
      have hend : EndsSolid (rest.take (r.extra + k)) r.extra := by
        unfold EndsSolid
        rw [List.take_take, Nat.min_eq_left (Nat.le_add_right _ _)]
        exact Reading.endsSolid_read hr
      rw [List.take_succ_cons, endsInComment_of_endsSolid hsolid hend, List.drop_take,
        Nat.add_sub_cancel_left, show n + (r.extra + k + 1) = n + 1 + r.extra + k by omega]

/-- Every statement of a run is a reading at some place of the lines. -/
theorem exists_reading_of_mem (h : readStatements escape n flag lines = .ok statements)
    {s : Statement} (hs : s ∈ statements) :
    ∃ line rest r k commented, (line :: rest) <:+ lines ∧ isSkippedLine line = false ∧
      Reading.read escape (Text.strip line) rest = .ok r ∧ s = r.place k commented := by
  obtain ⟨k, line, rest, r, hdrop, hsolid, hr, rfl⟩ := exists_place_of_mem h hs
  exact ⟨line, rest, r, _, _, hdrop ▸ List.drop_suffix k lines, hsolid, hr, rfl⟩

/-- Every step of a Dockerfile is the reading of one of its lines behind the header. -/
theorem exists_place_of_ofLines {d : Dockerfile} (h : ofLines lines = .ok d) {i : Instruction}
    (hi : i ∈ d.instructions) :
    ∃ header k line rest r, Header.read .backslash 0 lines = .ok header ∧ header.size ≤ k ∧
      lines.drop k = line :: rest ∧ isSkippedLine line = false ∧
      Reading.read d.escape.char (Text.strip line) rest = .ok r ∧
      i = (r.place k (endsInComment false ((lines.take k).drop header.size))).instruction := by
  obtain ⟨header, statements, hh, hrun, rfl⟩ := ofLines_eq_ok_iff.mp h
  obtain ⟨s, hs, rfl⟩ := List.mem_map.mp hi
  obtain ⟨k, line, rest, r, hdrop, hsolid, hr, rfl⟩ := exists_place_of_mem hrun hs
  rw [List.drop_drop] at hdrop
  refine ⟨header, header.size + k, line, rest, r, hh, Nat.le_add_right _ _, hdrop, hsolid, hr, ?_⟩
  rw [List.drop_take, Nat.add_sub_cancel_left]

/-! ## Warnings -/

theorem Reading.subject_place_warning (r : Reading) (k : Nat) (commented : Bool) :
    (r.place k commented).warning.map UnknownKeyword.subject =
      if (r.place k commented).instruction.opcode.isKnown then none
      else some ((r.place k commented).instruction.line,
        (r.place k commented).instruction.opcode) := by
  unfold Reading.place
  dsimp only
  split <;> rfl

theorem subject_warnings {escape : Escape} {statements : List Statement}
    (h : ∀ s ∈ statements, ∃ r k commented, s = Reading.place k commented r) :
    (ofStatements escape statements).warnings.map UnknownKeyword.subject =
      ((ofStatements escape statements).instructions.filter fun i => !i.opcode.isKnown).map
        fun i => (i.line, i.opcode) := by
  unfold ofStatements
  dsimp only
  induction statements with
  | nil => rfl
  | cons s statements ih =>
    have hrest := ih fun other ho => h other (List.mem_cons_of_mem _ ho)
    obtain ⟨r, k, commented, rfl⟩ := h s List.mem_cons_self
    have hsubject := r.subject_place_warning k commented
    cases hknown : (r.place k commented).instruction.opcode.isKnown with
    | true =>
      rw [hknown, if_pos rfl, Option.map_eq_none_iff] at hsubject
      rw [List.filterMap_cons_none hsubject, List.map_cons,
        List.filter_cons_of_neg (by simp [hknown]), hrest]
    | false =>
      rw [hknown, if_neg (by simp)] at hsubject
      obtain ⟨w, hw, hwsubject⟩ := Option.map_eq_some_iff.mp hsubject
      rw [List.filterMap_cons_some hw, List.map_cons, List.map_cons,
        List.filter_cons_of_pos (by simp [hknown]), List.map_cons, hrest, hwsubject]

theorem subject_warnings_readStatements {chosen : Escape}
    (h : readStatements escape n flag lines = .ok statements) :
    (ofStatements chosen statements).warnings.map UnknownKeyword.subject =
      ((ofStatements chosen statements).instructions.filter fun i => !i.opcode.isKnown).map
        fun i => (i.line, i.opcode) := by
  refine subject_warnings fun s hs => ?_
  obtain ⟨-, -, r, k, commented, -, -, -, hplace⟩ := exists_reading_of_mem h hs
  exact ⟨r, k, commented, hplace⟩

/-- The warnings of a Dockerfile are those about its steps that no builder knows, in order. -/
theorem subject_warnings_ofLines {d : Dockerfile} (h : ofLines lines = .ok d) :
    d.warnings.map UnknownKeyword.subject =
      (d.instructions.filter fun i => !i.opcode.isKnown).map fun i => (i.line, i.opcode) := by
  obtain ⟨header, statements, -, hs, rfl⟩ := ofLines_eq_ok_iff.mp h
  exact subject_warnings_readStatements hs

end Dockerfile

end Drydock
