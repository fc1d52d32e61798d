/-
  What one step takes. A step that is read depends on the lines it takes and on no others
  (`read_congr`), and it ends on a line that is neither blank nor a comment (`endsSolid_read`). A
  fault of a step is as local, unless the text ends before the step does (`read_append_of_error`).
-/
import Drydock.Dockerfile.Parser
import Drydock.Proofs.Dockerfile.Heredoc

namespace Drydock

/-! ## Faults of a text that ends too early -/

/-- Whether more text could mend the fault. -/
def ParseCause.isUnterminated : ParseCause → Bool
  | unterminatedContinuation | unterminatedHeredoc _ => true
  | _ => false

/-- The wording of a fault shows whether more text could mend it. -/
theorem ParseCause.startsWith_reason (cause : ParseCause) :
    Text.startsWith cause.reason "unterminated" = cause.isUnterminated := by
  cases cause <;> rfl

namespace Dockerfile.Reading

open HeredocMarker (size)

variable {escape : Char} {first : Text} {rest : List Text} {r : Reading}

theorem isNamed_of_mem_markersOf {keyword arguments : Text} {execForm : Bool} {m : HeredocMarker}
    (h : m ∈ markersOf keyword arguments execForm) : m.IsNamed := by
  unfold markersOf at h
  split at h
  · exact HeredocMarker.isNamed_of_mem_find h
  · exact absurd h List.not_mem_nil

/-- A step is read when its logical line is complete and admitted, its arguments can be split and all
its bodies end. -/
theorem read_eq_ok_iff : read escape first rest = .ok r ↔
    ∃ l split found, LogicalLine.gather escape first rest = some l ∧
      refusal? (keywordOf l) (argumentsOf l) = none ∧ splitArguments (argumentsOf l) = .ok split ∧
      HeredocMarker.bodies (markersOf (keywordOf l) (argumentsOf l) split.2)
        (rest.drop l.extra) = .ok found ∧
      r = ⟨keywordOf l, argumentsOf l, split, found, l.extra + size found⟩ := by
  unfold read
  cases hl : LogicalLine.gather escape first rest with
  | none => simp
  | some l =>
    cases hr : refusal? (keywordOf l) (argumentsOf l) with
    | some cause => simp [hr]
    | none =>
      cases hs : splitArguments (argumentsOf l) with
      | error cause => simp [hr, hs]
      | ok split =>
        cases hb : HeredocMarker.bodies (markersOf (keywordOf l) (argumentsOf l) split.2)
            (rest.drop l.extra) with
        | error m => simp [hr, hs, hb, -Prod.exists]
        | ok found => simp [hr, hs, hb, eq_comm, -Prod.exists]

theorem extra_le (h : read escape first rest = .ok r) : r.extra ≤ rest.length := by
  obtain ⟨l, split, found, hl, -, -, hb, rfl⟩ := read_eq_ok_iff.mp h
  have h1 := LogicalLine.extra_le_length hl
  have h2 := HeredocMarker.size_bodies_le hb
  rw [List.length_drop] at h2
  dsimp only
  omega

/-- What stands below the lines of a step has no influence on it. -/
theorem read_congr (h : read escape first rest = .ok r) {other : List Text}
    (ht : other.take r.extra = rest.take r.extra) : read escape first other = .ok r := by
  obtain ⟨l, split, found, hl, hr, hs, hb, rfl⟩ := read_eq_ok_iff.mp h
  dsimp only at ht
  have hline := congrArg (List.take l.extra) ht
  have hbelow := congrArg (List.drop l.extra) ht
  rw [List.take_take, List.take_take, Nat.min_eq_left (Nat.le_add_right _ _)] at hline
  rw [List.drop_take, List.drop_take, Nat.add_sub_cancel_left] at hbelow
  exact read_eq_ok_iff.mpr
    ⟨l, split, found, LogicalLine.gather_congr hl hline, hr, hs,
      HeredocMarker.bodies_congr hb hbelow, rfl⟩

/-- More lines below those of a step make no difference to it. -/
theorem read_append (h : read escape first rest = .ok r) (more : List Text) :
    read escape first (rest ++ more) = .ok r :=
  read_congr h (List.take_append_of_le_length (extra_le h))

/-- The bodies of a step are runs of the lines that it takes. -/
theorem infix_of_read (h : read escape first rest = .ok r) :
    ∀ body ∈ r.bodies, body <:+: rest.take r.extra := by
  have htaken : read escape first (rest.take r.extra) = .ok r :=
    read_congr h (by rw [List.take_take, Nat.min_self])
  obtain ⟨l, split, found, -, -, -, hb, hr⟩ := read_eq_ok_iff.mp htaken
  intro body hbody
  rw [hr] at hbody
  exact (HeredocMarker.infix_of_bodies hb body hbody).trans (List.drop_suffix _ _).isInfix

/-- A step ends on a line that is neither blank nor a comment. -/
theorem endsSolid_read (h : read escape first rest = .ok r) : EndsSolid rest r.extra := by
  obtain ⟨l, split, found, hl, -, -, hb, rfl⟩ := read_eq_ok_iff.mp h
  exact endsSolid_add (LogicalLine.endsSolid_gather hl)
    (HeredocMarker.endsSolid_bodies (fun _ => isNamed_of_mem_markersOf) hb)

/-- A fault that more text could not mend is found without what stands below. -/
theorem read_append_of_error {cause : ParseCause} (h : read escape first rest = .error cause)
    (hc : cause.isUnterminated = false) (more : List Text) :
    read escape first (rest ++ more) = .error cause := by
  unfold read at h ⊢
  cases hl : LogicalLine.gather escape first rest with
  | none =>
    rw [hl] at h
    obtain rfl := Except.error.inj h
    exact absurd hc (by simp [ParseCause.isUnterminated])
  | some l =>
    have hle := LogicalLine.extra_le_length hl
    rw [LogicalLine.gather_congr hl (List.take_append_of_le_length hle)]
    rw [hl] at h
    dsimp only at h ⊢
    cases hr : refusal? (keywordOf l) (argumentsOf l) with
    | some other =>
      rw [hr] at h
      exact h
    | none =>
      rw [hr] at h
      dsimp only at h ⊢
      cases hs : splitArguments (argumentsOf l) with
      | error other =>
        rw [hs] at h
        exact h
      | ok split =>
        rw [hs] at h
        dsimp only at h
        split at h
        · obtain rfl := Except.error.inj h
          exact absurd hc (by simp [ParseCause.isUnterminated])
        · exact absurd h (by simp)

/-- An empty line at the very end belongs to no step. -/
theorem read_append_empty (escape : Char) (first : Text) (rest : List Text) :
    read escape first (rest ++ [[]]) = read escape first rest := by
  unfold read
  rw [LogicalLine.gather_append_empty]
  cases hl : LogicalLine.gather escape first rest with
  | none => rfl
  | some l =>
    have hle := LogicalLine.extra_le_length hl
    have hbodies (execForm : Bool) :
        HeredocMarker.bodies (markersOf (keywordOf l) (argumentsOf l) execForm)
            ((rest ++ [[]]).drop l.extra) =
          HeredocMarker.bodies (markersOf (keywordOf l) (argumentsOf l) execForm)
            (rest.drop l.extra) := by
      rw [List.drop_append_of_le_length hle,
        HeredocMarker.bodies_append_empty fun _ => isNamed_of_mem_markersOf]
    simp only [hbodies]

end Dockerfile.Reading

end Drydock
