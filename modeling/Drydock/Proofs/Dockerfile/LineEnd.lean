/-
  How lines are written. Lines may be ended in any of eleven ways, the last of them or only those
  before it, behind a byte-order mark or without one: what is read depends on the lines alone
  (`parse_write`), and the bodies of its steps are runs of them, joined by line feeds in any case
  (`parse_write_alike`). A number that is too long is met in all of them, and reported in none
  (`write_not_reported`).
-/
import Drydock.Proofs.Dockerfile.Fault
import Drydock.Proofs.Dockerfile.LongNumber
import Drydock.Proofs.Dockerfile.Printing

namespace Drydock

/-- An end behind joined lines opens an empty line. -/
theorem Text.joinWith_append_nil (e : Text) {ls : List Text} (h : ls ≠ []) :
    joinWith e (ls ++ [[]]) = joinWith e ls ++ e := by
  induction ls with
  | nil => exact absurd rfl h
  | cons u ls ih =>
    cases ls with
    | nil => simp
    | cons v ls =>
      have hrest := ih (List.cons_ne_nil v ls)
      rw [List.cons_append] at hrest
      rw [List.cons_append, List.cons_append, joinWith_cons_cons, joinWith_cons_cons, hrest,
        List.append_assoc, List.append_assoc, List.append_assoc]

/-! ## Writing -/

/-- A way to write lines: what ends them, whether a byte-order mark stands in front, and whether the
last line is ended too. -/
structure LineStyle where
  lineEnd : Text
  ends : lineEnd ∈ Text.lineEnds
  marked : Bool
  endsLast : Bool

/-- The text of lines. -/
def LineStyle.write (s : LineStyle) (lines : List Text) : Text :=
  (if s.marked then [Dockerfile.mark] else []) ++
    (Text.joinWith s.lineEnd lines ++ if s.endsLast then s.lineEnd else [])

namespace Dockerfile

theorem parse_mark_cons {t : Text} (h : t.head? ≠ some mark) : parse (mark :: t) = parse t := by
  rw [parse, physicalLines, withoutMark, if_pos rfl, parse, physicalLines, withoutMark_of_head h]

/-- Lines with an end behind the last one are joined lines that say the same. -/
theorem exists_joinWith_eq_append {e : Text} {lines : List Text}
    (hlines : ∀ u ∈ lines, Text.IsLine u) (hmark : ∀ u ∈ lines.head?, u.head? ≠ some mark) :
    ∃ more, Text.joinWith e lines ++ e = Text.joinWith e more ∧
      (∀ u ∈ more, Text.IsLine u) ∧ (∀ u ∈ more.head?, u.head? ≠ some mark) ∧
      ofLines more = ofLines lines := by
  by_cases hne : lines = []
  · have hempty : ofLines [[], []] = ofLines [] :=
      (ofLines_append_empty [[]]).trans (ofLines_append_empty [])
    subst hne
    exact ⟨[[], []], by simp, by decide, by decide, hempty⟩
  · refine ⟨lines ++ [[]], (Text.joinWith_append_nil e hne).symm, fun u hu => ?_, ?_,
      ofLines_append_empty lines⟩
    · rcases List.mem_append.mp hu with hu | hu
      · exact hlines u hu
      · obtain rfl := List.mem_singleton.mp hu
        decide
    · rw [List.head?_append_of_ne_nil lines hne]
      exact hmark

/-- Lines are read alike however they are written. -/
theorem parse_write (s : LineStyle) {lines : List Text} (hlines : ∀ u ∈ lines, Text.IsLine u)
    (hmark : ∀ u ∈ lines.head?, u.head? ≠ some mark) : parse (s.write lines) = ofLines lines := by
  obtain ⟨more, hwritten, hmore, hfirst, heq⟩ : ∃ more,
      (Text.joinWith s.lineEnd lines ++ if s.endsLast then s.lineEnd else []) =
        Text.joinWith s.lineEnd more ∧ (∀ u ∈ more, Text.IsLine u) ∧
      (∀ u ∈ more.head?, u.head? ≠ some mark) ∧ ofLines more = ofLines lines := by
    cases s.endsLast with
    | false => exact ⟨lines, List.append_nil _, hlines, hmark, rfl⟩
    | true => exact exists_joinWith_eq_append hlines hmark
  have hjoined := (parse_joinWith_lineEnd s.ends hmore hfirst).trans heq
  rw [LineStyle.write, hwritten]
  cases s.marked with
  | false => exact hjoined
  | true => exact (parse_mark_cons (head_joinWith_ne_mark s.ends hfirst)).trans hjoined

/-! ## Bodies -/

/-- What is raw of a step is a line of arguments with bodies below it, each of them a run of the
lines that the step takes beyond its first, and line feeds between them all. -/
def JoinsLines (lines : List Text) (i : Instruction) : Prop :=
  ∃ (arguments : Text) (bodies : List (List Text)),
    i.raw = Text.joinWith ['\n'] (arguments :: bodies.map (Text.joinWith ['\n'])) ∧
    Text.IsLine arguments ∧
    ∀ body ∈ bodies, body <:+: (lines.drop i.line).take (i.endLine - i.line)

theorem joinsLines_of_ofLines {lines : List Text} (hlines : ∀ u ∈ lines, Text.IsLine u)
    {d : Dockerfile} (h : ofLines lines = .ok d) {i : Instruction} (hi : i ∈ d.instructions) :
    JoinsLines lines i := by
  obtain ⟨-, k, line, rest, r, -, -, hdrop, hsolid, hr, rfl⟩ := exists_place_of_ofLines h hi
  have hbelow : ∀ u ∈ line :: rest, Text.IsLine u := fun u hu =>
    hlines u (List.mem_of_mem_drop (hdrop ▸ hu))
  have hrest : lines.drop (k + 1) = rest := by
    rw [← List.drop_drop, hdrop, List.drop_succ_cons, List.drop_zero]
  refine ⟨r.arguments, r.bodies, rfl, isLine_arguments hsolid hbelow hr, ?_⟩
  show ∀ body ∈ r.bodies, body <:+: (lines.drop (k + 1)).take (k + 1 + r.extra - (k + 1))
  rw [hrest, Nat.add_sub_cancel_left]
  exact Reading.infix_of_read hr

/-- How lines are ended, whether the last of them is, and whether a mark stands in front makes no
difference to what they come to. In what is read, bodies are runs of lines joined by line feeds; and
a fault is not reported as such just if a step stops at a number that is too long. -/
theorem parse_write_alike (lines : List Text) (hlines : ∀ line ∈ lines, Text.IsLine line)
    (hmark : ∀ line ∈ lines.head?, line.head? ≠ some mark) (s s' : LineStyle) :
    parse (s.write lines) = parse (s'.write lines) ∧
    (∀ d, parse (s.write lines) = .ok d → ∀ i ∈ d.instructions, JoinsLines lines i) ∧
    ∀ e, parse (s.write lines) = .error e →
      (e.cause.isReported = false ↔ MeetsLongNumber lines) := by
  rw [parse_write s hlines hmark, parse_write s' hlines hmark]
  exact ⟨rfl, fun d hd i hi => joinsLines_of_ofLines hlines hd hi,
    fun e he => isReported_iff_of_ofLines he⟩

/-- A body with an empty line in it: behind a mark with pairs at the ends of all lines, and without
a mark with separators between the lines. -/
theorem parse_write_alike_of_pairs_and_separators :
    parse "\uFEFFFROM a\r\nRUN x <<E\r\ny\r\n\r\nz\r\nE\r\n" =
      parse "FROM a\u2028RUN x <<E\u2028y\u2028\u2028z\u2028E" ∧
    ∃ d, parse "FROM a\u2028RUN x <<E\u2028y\u2028\u2028z\u2028E" = .ok d ∧
      d.instructions.map Instruction.raw = ["a", "x <<E\ny\n\nz"] ∧
      ∀ i ∈ d.instructions, JoinsLines ["FROM a", "RUN x <<E", "y", "", "z", "E"] i := by
  let pairs : LineStyle := ⟨"\r\n", by decide, true, true⟩
  let separators : LineStyle := ⟨"\u2028", by decide, false, false⟩
  have hread : parse "FROM a\u2028RUN x <<E\u2028y\u2028\u2028z\u2028E" = .ok
      { instructions :=
          [{ opcode := .base, arguments := ["a"], line := 1, endLine := 1, raw := "a" },
           { opcode := .run, arguments := ["x", "<<E"], line := 2, endLine := 6,
             raw := "x <<E\ny\n\nz" }]
        warnings := []
        escape := .backslash } := by decide +kernel
  obtain ⟨halike, hjoins, -⟩ := parse_write_alike ["FROM a", "RUN x <<E", "y", "", "z", "E"]
    (by decide) (by decide) separators pairs
  exact ⟨halike.symm, _, hread, rfl, hjoins _ hread⟩

/-- An array with a number that is too long is neither read nor reported, be the lines separated by
line feeds or be they ended by pairs behind a mark. -/
theorem write_not_reported :
    parse (Text.joinWith "\n" [("FROM a" : Text), longStep "x"]) =
      .error ⟨2, .tooManyDigits 4301⟩ ∧
    parse (mark :: (Text.joinWith "\r\n" [("FROM a" : Text), longStep "x"] ++ "\r\n")) =
      .error ⟨2, .tooManyDigits 4301⟩ ∧
    (ParseCause.tooManyDigits 4301).isReported = false := by
  have hrest : Text.IsLine "x" := by decide
  have hlines : ∀ line ∈ [("FROM a" : Text), longStep "x"], Text.IsLine line := by
    intro line hline
    rcases List.mem_pair.mp hline with rfl | rfl
    · decide
    · exact isLine_longStep hrest
  have hmark : ∀ line ∈ [("FROM a" : Text), longStep "x"].head?, line.head? ≠ some mark := by
    intro line hline
    obtain rfl := Option.some.inj hline
    decide
  have hfault (s : LineStyle) : parse (s.write [("FROM a" : Text), longStep "x"]) =
      .error ⟨2, .tooManyDigits 4301⟩ :=
    (parse_write s hlines hmark).trans (ofLines_longStep hrest [])
  have hseparated := hfault ⟨"\n", by decide, false, false⟩
  rw [LineStyle.write, if_neg (by simp), if_neg (by simp), List.nil_append, List.append_nil]
    at hseparated
  exact ⟨hseparated, hfault ⟨"\r\n", by decide, true, true⟩, rfl⟩

end Dockerfile

end Drydock
