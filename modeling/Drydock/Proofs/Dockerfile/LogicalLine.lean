/-
  What a logical line takes. `gather_congr`: a logical line is found by the lines it takes and by no
  other. `endsSolid_gather`: the last of these is neither blank nor a comment. `gather_append_empty`:
  an empty line at the very end cannot complete a logical line.
-/
import Drydock.Dockerfile.Continuation

namespace Drydock

theorem isSkippedLine_nil : isSkippedLine [] = true := rfl

theorem not_isCommentLine_of_solid {line : Text} (h : isSkippedLine line = false) :
    isCommentLine line = false := by
  unfold isSkippedLine at h
  exact (Bool.or_eq_false_iff.mp h).2

/-- The last of the first `n` lines, if there is one, is neither blank nor a comment. -/
def EndsSolid (lines : List Text) (n : Nat) : Prop :=
  ∀ line ∈ (lines.take n).getLast?, isSkippedLine line = false

theorem endsSolid_zero (lines : List Text) : EndsSolid lines 0 := by
  intro line h
  rw [List.take_zero] at h
  exact absurd h (by simp)

theorem endsSolid_add {lines : List Text} {m n : Nat} (hm : EndsSolid lines m)
    (hn : EndsSolid (lines.drop m) n) : EndsSolid lines (m + n) := by
  intro line h
  rw [List.take_add, List.getLast?_append] at h
  cases hlast : ((lines.drop m).take n).getLast? with
  | none =>
    rw [hlast, Option.none_or] at h
    exact hm line h
  | some other =>
    rw [hlast, Option.some_or] at h
    exact hn line (hlast ▸ h)

/-- Lists that agree on one member and more have the same first member. -/
theorem exists_cons_of_take_eq {line : Text} {rest other : List Text} {n : Nat}
    (h : other.take (n + 1) = (line :: rest).take (n + 1)) :
    ∃ below, other = line :: below ∧ below.take n = rest.take n := by
  cases other with
  | nil => exact absurd h.symm (List.cons_ne_nil _ _)
  | cons first below =>
    obtain ⟨rfl, hbelow⟩ := List.cons.inj h
    exact ⟨below, rfl, hbelow⟩

namespace LogicalLine

variable {escape : Char} {piece : Text} {rest : List Text} {l : LogicalLine}

theorem gather_of_not_continued (h : isContinued escape piece = false) (rest : List Text) :
    gather escape piece rest = some ⟨[piece], 0⟩ := by
  cases rest <;> simp [gather, h]

/-- A text that ends behind a continued line makes no logical line. -/
theorem gather_nil (h : isContinued escape piece = true) : gather escape piece [] = none := by
  rw [gather, if_pos h]

/-- A continued line passes over a line that is blank or a comment. -/
theorem gather_skip (h : isContinued escape piece = true) {line : Text}
    (hs : isSkippedLine line = true) (rest : List Text) :
    gather escape piece (line :: rest) =
      (gather escape piece rest).map fun l => ⟨l.pieces, l.extra + 1⟩ := by
  rw [gather, if_pos h, if_pos hs]

/-- A continued line goes on with the next line that is neither blank nor a comment. -/
theorem gather_continue (h : isContinued escape piece = true) {line : Text}
    (hs : isSkippedLine line = false) (rest : List Text) :
    gather escape piece (line :: rest) =
      (gather escape (Text.strip line) rest).map fun l =>
        ⟨withoutEscape piece :: l.pieces, l.extra + 1⟩ := by
  rw [gather, if_pos h, if_neg (by simp [hs])]

/-- What holds without a continuation, at the end of the text, behind a line passed over, and behind
a line that goes on holds always. -/
theorem gather_induction (escape : Char) {motive : Text → List Text → Prop}
    (last : ∀ piece rest, isContinued escape piece = false → motive piece rest)
    (nil : ∀ piece, isContinued escape piece = true → motive piece [])
    (skip : ∀ piece line rest, isContinued escape piece = true → isSkippedLine line = true →
      motive piece rest → motive piece (line :: rest))
    (goOn : ∀ piece line rest, isContinued escape piece = true → isSkippedLine line = false →
      motive (Text.strip line) rest → motive piece (line :: rest))
    (piece : Text) (rest : List Text) : motive piece rest := by
  induction rest generalizing piece with
  | nil =>
    cases hc : isContinued escape piece with
    | false => exact last piece [] hc
    | true => exact nil piece hc
  | cons line rest ih =>
    cases hc : isContinued escape piece with
    | false => exact last piece (line :: rest) hc
    | true =>
      cases hs : isSkippedLine line with
      | true => exact skip piece line rest hc hs (ih piece)
      | false => exact goOn piece line rest hc hs (ih (Text.strip line))

/-- What stands below the lines of a logical line has no influence on it. -/
theorem gather_congr (h : gather escape piece rest = some l) {other : List Text}
    (ht : other.take l.extra = rest.take l.extra) : gather escape piece other = some l := by
  induction piece, rest using gather_induction escape generalizing l other with
  | last piece rest hc =>
    rw [gather_of_not_continued hc] at h ⊢
    exact h
  | nil piece hc =>
    rw [gather_nil hc] at h
    exact absurd h (by simp)
  | skip piece line rest hc hs ih =>
    rw [gather_skip hc hs] at h
    obtain ⟨m, hm, rfl⟩ := Option.map_eq_some_iff.mp h
    obtain ⟨below, rfl, hbelow⟩ := exists_cons_of_take_eq ht
    rw [gather_skip hc hs, ih hm hbelow]
    rfl
  | goOn piece line rest hc hs ih =>
    rw [gather_continue hc hs] at h
    obtain ⟨m, hm, rfl⟩ := Option.map_eq_some_iff.mp h
    obtain ⟨below, rfl, hbelow⟩ := exists_cons_of_take_eq ht
    rw [gather_continue hc hs, ih hm hbelow]
    rfl

theorem extra_pos_of_continued (hc : isContinued escape piece = true)
    (h : gather escape piece rest = some l) : 0 < l.extra := by
  cases rest with
  | nil =>
    rw [gather_nil hc] at h
    exact absurd h (by simp)
  | cons line rest =>
    cases hs : isSkippedLine line with
    | true =>
      rw [gather_skip hc hs] at h
      obtain ⟨m, -, rfl⟩ := Option.map_eq_some_iff.mp h
      exact Nat.succ_pos _
    | false =>
      rw [gather_continue hc hs] at h
      obtain ⟨m, -, rfl⟩ := Option.map_eq_some_iff.mp h
      exact Nat.succ_pos _

/-- A logical line ends on a line that is neither blank nor a comment. -/
theorem endsSolid_gather (h : gather escape piece rest = some l) : EndsSolid rest l.extra := by
  induction piece, rest using gather_induction escape generalizing l with
  | last piece rest hc =>
    rw [gather_of_not_continued hc] at h
    obtain rfl := Option.some.inj h
    exact endsSolid_zero _
  | nil piece hc =>
    rw [gather_nil hc] at h
    exact absurd h (by simp)
  | skip piece line rest hc hs ih =>
    rw [gather_skip hc hs] at h
    obtain ⟨m, hm, rfl⟩ := Option.map_eq_some_iff.mp h
    -- The line passed over is not the last: something below it completes the logical line.
    have hpos := extra_pos_of_continued hc hm
    have hle := extra_le_length hm
    have hne : rest.take m.extra ≠ [] := by
      intro hnil
      have := congrArg List.length hnil
      rw [List.length_take, List.length_nil] at this
      omega
    intro last hlast
    rw [List.take_succ_cons, List.getLast?_cons_of_ne_nil hne] at hlast
    exact ih hm last hlast
  | goOn piece line rest hc hs ih =>
    rw [gather_continue hc hs] at h
    obtain ⟨m, hm, rfl⟩ := Option.map_eq_some_iff.mp h
    have hfirst : EndsSolid (line :: rest) 1 := by
      intro last hlast
      obtain rfl := Option.some.inj hlast
      exact hs
    show EndsSolid (line :: rest) (m.extra + 1)
    rw [Nat.add_comm]
    exact endsSolid_add hfirst (ih hm)

/-- An empty line at the very end makes no logical line and changes none. -/
theorem gather_append_empty (escape : Char) (piece : Text) (rest : List Text) :
    gather escape piece (rest ++ [[]]) = gather escape piece rest := by
  induction piece, rest using gather_induction escape with
  | last piece rest hc => rw [gather_of_not_continued hc, gather_of_not_continued hc]
  | nil piece hc =>
    rw [List.nil_append, gather_skip hc isSkippedLine_nil, gather_nil hc, Option.map_none]
  | skip piece line rest hc hs ih =>
    rw [List.cons_append, gather_skip hc hs, gather_skip hc hs, ih]
  | goOn piece line rest hc hs ih =>
    rw [List.cons_append, gather_continue hc hs, gather_continue hc hs, ih]

end LogicalLine

end Drydock
