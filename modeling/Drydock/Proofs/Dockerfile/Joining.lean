/-
  What a logical line says. Its pieces are joined by single spaces and an empty piece leaves no
  trace, so a piece and a space in front of a logical line stand in front of what it says
  (`gathered_append`); and a step is read by what its logical line says and by the lines below that
  (`read_lengthen`).
-/
import Drydock.Proofs.Dockerfile.Step

namespace Drydock

/-! ## Joining pieces -/

theorem isContinued_append {escape : Char} {p y : Text} (hy : Text.IsTight y) :
    isContinued escape (p ++ ' ' :: y) = isContinued escape y := by
  unfold isContinued
  rw [hy.stripRight_space, hy.stripRight_eq, List.getLast?_append,
    List.getLast?_cons_of_ne_nil hy.1]
  cases y with
  | nil => exact absurd rfl hy.1
  | cons c y => rw [List.getLast?_cons, Option.some_or]

theorem withoutEscape_append {p y : Text} (hp : Text.IsTight p) (hy : Text.IsTight y) :
    withoutEscape (p ++ ' ' :: y) = Text.joinBlank p (withoutEscape y) := by
  unfold withoutEscape
  rw [hy.stripRight_space, hy.stripRight_eq, List.dropLast_append_of_ne_nil (by simp),
    List.dropLast_cons_of_ne_nil hy.1]
  refine hp.strip_space fun c hc => ?_
  obtain ⟨d, u, rfl, hd, -⟩ := (Text.isTight_iff y).mp hy
  cases u with
  | nil => exact absurd hc (by simp)
  | cons a u =>
    obtain rfl := Option.some.inj hc
    exact hd

namespace LogicalLine

theorem text_singleton (piece : Text) (n : Nat) : text ⟨[piece], n⟩ = piece := by
  cases piece <;> rfl

theorem text_cons (piece : Text) (pieces : List Text) (m n : Nat) :
    text ⟨piece :: pieces, m⟩ = Text.joinBlank piece (text ⟨pieces, n⟩) := by
  unfold text
  dsimp only
  cases piece with
  | nil => rfl
  | cons c piece =>
    rw [List.filter_cons_of_pos (by rfl)]
    cases hrest : pieces.filter fun piece => !piece.isEmpty with
    | nil => exact (Text.joinBlank_nil_right _).symm
    | cons other others =>
      have hother : other ≠ [] := by
        have hmem : other ∈ pieces.filter fun piece => !piece.isEmpty := by
          rw [hrest]
          exact List.mem_cons_self
        simpa using (List.mem_filter.mp hmem).2
      have hne : Text.joinWith " " (other :: others) ≠ [] := by
        cases others with
        | nil => exact hother
        | cons next others => simp [hother]
      rw [Text.joinBlank_of_ne_nil (List.cons_ne_nil _ _) hne, Text.joinWith_cons_cons,
        List.append_assoc]
      rfl

/-- What a logical line says, and how many lines it takes beyond the first. -/
def gathered (escape : Char) (piece : Text) (rest : List Text) : Option (Text × Nat) :=
  (gather escape piece rest).map fun l => (l.text, l.extra)

variable {escape : Char} {piece : Text}

theorem gathered_of_not_continued (h : isContinued escape piece = false) (rest : List Text) :
    gathered escape piece rest = some (piece, 0) := by
  rw [gathered, gather_of_not_continued h, Option.map_some, text_singleton]

theorem gathered_nil (h : isContinued escape piece = true) : gathered escape piece [] = none := by
  rw [gathered, gather_nil h, Option.map_none]

theorem gathered_skip (h : isContinued escape piece = true) {line : Text}
    (hs : isSkippedLine line = true) (rest : List Text) :
    gathered escape piece (line :: rest) =
      (gathered escape piece rest).map (Prod.map id (· + 1)) := by
  rw [gathered, gathered, gather_skip h hs, Option.map_map, Option.map_map]
  rfl

theorem gathered_continue (h : isContinued escape piece = true) {line : Text}
    (hs : isSkippedLine line = false) (rest : List Text) :
    gathered escape piece (line :: rest) =
      (gathered escape (Text.strip line) rest).map
        (Prod.map (Text.joinBlank (withoutEscape piece)) (· + 1)) := by
  rw [gathered, gathered, gather_continue h hs, Option.map_map, Option.map_map]
  congr 1
  funext l
  exact congrArg (·, l.extra + 1) (text_cons _ l.pieces _ l.extra)

/-- Lines that are blank or comments only lengthen the logical line that passes over them. -/
theorem gathered_skips (h : isContinued escape piece = true) {front : List Text}
    (hs : ∀ line ∈ front, isSkippedLine line = true) (rest : List Text) :
    gathered escape piece (front ++ rest) =
      (gathered escape piece rest).map (Prod.map id (· + front.length)) := by
  induction front with
  | nil => exact (congrFun Option.map_id _).symm
  | cons line front ih =>
    rw [List.cons_append, gathered_skip h (hs line List.mem_cons_self),
      ih fun other ho => hs other (List.mem_cons_of_mem _ ho), Option.map_map, Prod.map_comp_map]
    rfl

/-- A piece and a space in front of a logical line stand in front of what it says. -/
theorem gathered_append {p y : Text} (hp : Text.IsTight p) (hy : Text.IsTight y)
    (rest : List Text) :
    gathered escape (p ++ ' ' :: y) rest =
      (gathered escape y rest).map (Prod.map (Text.joinBlank p) id) := by
  have hcontinued : isContinued escape (p ++ ' ' :: y) = isContinued escape y :=
    isContinued_append hy
  cases hc : isContinued escape y with
  | false =>
    rw [hc] at hcontinued
    rw [gathered_of_not_continued hc, gathered_of_not_continued hcontinued, Option.map_some,
      Prod.map_apply, Text.joinBlank_of_ne_nil hp.1 hy.1, id]
  | true =>
    rw [hc] at hcontinued
    induction rest with
    | nil => rw [gathered_nil hc, gathered_nil hcontinued, Option.map_none]
    | cons line rest ih =>
      cases hs : isSkippedLine line with
      | true =>
        rw [gathered_skip hc hs, gathered_skip hcontinued hs, ih, Option.map_map, Option.map_map]
        rfl
      | false =>
        rw [gathered_continue hc hs, gathered_continue hcontinued hs, withoutEscape_append hp hy,
          Option.map_map]
        congr 1
        funext l
        exact congrArg (·, l.2 + 1) (Text.joinBlank_assoc p (withoutEscape y) l.1)

end LogicalLine

namespace Dockerfile

/-! ## Reading a step -/

/-- The same reading of a step that takes `m` lines more. -/
def Reading.lengthen (m : Nat) (r : Reading) : Reading := { r with extra := r.extra + m }

/-- A step is read by what its logical line says and by the lines below that. -/
theorem Reading.read_lengthen {escape : Char} {first other : Text} {front rest : List Text}
    (h : LogicalLine.gathered escape other (front ++ rest) =
      (LogicalLine.gathered escape first rest).map (Prod.map id (· + front.length))) :
    read escape other (front ++ rest) = (read escape first rest).map (lengthen front.length) := by
  unfold read
  unfold LogicalLine.gathered at h
  cases hl : LogicalLine.gather escape first rest with
  | none =>
    rw [hl] at h
    rw [Option.map_eq_none_iff.mp h]
    rfl
  | some l =>
    rw [hl] at h
    obtain ⟨l', hl', heq⟩ := Option.map_eq_some_iff.mp h
    have htext : l'.text = l.text := congrArg Prod.fst heq
    have hextra : l'.extra = l.extra + front.length := congrArg Prod.snd heq
    have hkeyword : keywordOf l' = keywordOf l := by rw [keywordOf, htext, keywordOf]
    have harguments : argumentsOf l' = argumentsOf l := by rw [argumentsOf, htext, argumentsOf]
    have hbelow : (front ++ rest).drop l'.extra = rest.drop l.extra := by
      rw [hextra, Nat.add_comm, List.drop_length_add_append]
    rw [hl']
    dsimp only
    rw [hkeyword, harguments, hbelow, hextra]
    cases refusal? (keywordOf l) (argumentsOf l) with
    | some cause => rfl
    | none =>
      cases splitArguments (argumentsOf l) with
      | error cause => rfl
      | ok split =>
        dsimp only
        cases HeredocMarker.bodies (markersOf (keywordOf l) (argumentsOf l) split.2)
            (rest.drop l.extra) with
        | error marker => rfl
        | ok found =>
          simp only [Except.map, lengthen, Nat.add_right_comm]

end Dockerfile

end Drydock
