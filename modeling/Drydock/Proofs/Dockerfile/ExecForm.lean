/-
  Two ways to write a command. The words of a step stand between blanks, or in an array of strings
  as JSON. Either line says one printable step, and the two steps have the same opcode, arguments
  and place (`exists_parse_words`).
-/
import Drydock.Proofs.Dockerfile.Body
import Drydock.Proofs.Dockerfile.Printing
import Drydock.Proofs.Dockerfile.Splitting
import Drydock.Proofs.Json.Documents
import Drydock.Proofs.Text.Fields

namespace Drydock

/-! ## Announcements -/

namespace HeredocMarker

theorem exists_eq_of_read? {t : Text} {m : HeredocMarker} (h : read? t = some m) :
    ∃ rest, t = ['<', '<'] ++ rest := by
  unfold read? at h
  split at h
  · exact ⟨_, rfl⟩
  · exact ⟨_, rfl⟩
  · exact absurd h (by simp)

/-- A marker stands at the front of a word of the text. -/
theorem find_eq_nil {t : Text} (h : ∀ w ∈ Text.fields t, Text.startsWith w ['<', '<'] = false) :
    find t = [] := by
  rw [find_eq_filterMap, List.filterMap_eq_nil_iff]
  intro n _
  cases hat : at? t n with
  | none => rfl
  | some m =>
    unfold at? at hat
    split at hat
    · next hstart =>
      obtain ⟨rest, hrest⟩ := exists_eq_of_read? hat
      rw [Bool.and_eq_true, Option.all_eq_true] at hstart
      have hword : Text.IsWord ['<', '<'] := by decide
      obtain ⟨more, hmem⟩ := Text.exists_mem_fields (hstart.1) hword rest
      rw [← hrest, List.take_append_drop] at hmem
      exact absurd (h _ hmem) (by simp [Text.startsWith])
    · exact absurd hat (by simp)

end HeredocMarker

/-! ## Words -/

/-- Words that mean the same in either form: none holds a blank or announces a body, the first is no
flag and opens no array, and the last does not continue the line. -/
structure AreWords (escape : Char) (ws : List Text) : Prop where
  ne_nil : ws ≠ []
  words : ∀ w ∈ ws, Text.IsWord w
  first : ∀ w ∈ ws.head?, Text.startsWith w ['['] = false ∧ Instruction.isFlag w = false
  unannounced : ∀ w ∈ ws, Text.startsWith w ['<', '<'] = false
  last : ∀ w ∈ ws.getLast?, w.getLast? ≠ some escape

/-- Words as arguments: in an array of strings, or between blanks. -/
def argumentText (execForm : Bool) (ws : List Text) : Text :=
  if execForm then Json.render (.array (ws.map .text)) else Text.joinWith " " ws

/-- The step that has these words in either form, on the line behind the first `n`. -/
def wordStep (op : Opcode) (ws : List Text) (n : Nat) (commented execForm : Bool) : Instruction :=
  { opcode := op, arguments := ws, line := n + 1, endLine := n + 1,
    raw := argumentText execForm ws, execForm, commented }

namespace AreWords

variable {escape : Escape} {ws : List Text}

theorem splitArguments_shell (h : AreWords escape.char ws) :
    Dockerfile.splitArguments (Text.joinWith " " ws) = .ok (ws, false) := by
  have hopen : Text.startsWith (Text.joinWith " " ws) ['['] = false := by
    obtain ⟨w, rest, rfl⟩ := List.exists_cons_of_ne_nil h.ne_nil
    obtain ⟨t, ht⟩ := Text.exists_joinWith_eq w rest
    obtain ⟨c, u, rfl⟩ := List.exists_cons_of_ne_nil (h.words w List.mem_cons_self).ne_nil
    rw [ht]
    exact (h.first _ rfl).1
  rw [Dockerfile.splitArguments, hopen, Text.fields_joinWith h.words]
  rfl

theorem splitArguments_exec (ws : List Text) :
    Dockerfile.splitArguments (Json.render (.array (ws.map .text))) = .ok (ws, true) := by
  have hopen : Text.startsWith (Json.render (.array (ws.map .text))) ['['] = true := by
    rw [Json.render]
    rfl
  have hclose : Text.endsWith (Json.render (.array (ws.map .text))) [']'] = true := by
    rw [Json.render, Json.array]
    exact List.isSuffixOf_iff_suffix.mpr (List.suffix_append _ _)
  rw [Dockerfile.splitArguments, hopen, hclose, Json.loadTexts_render]
  rfl

theorem markersOf_shell (h : AreWords escape.char ws) (keyword : Text) (execForm : Bool) :
    Dockerfile.markersOf keyword (Text.joinWith " " ws) execForm = [] := by
  have hfind : HeredocMarker.find (Text.joinWith " " ws) = [] :=
    HeredocMarker.find_eq_nil fun w hw => h.unannounced w (Text.fields_joinWith h.words ▸ hw)
  rw [Dockerfile.markersOf, hfind, ite_self]

theorem getLast?_shell_ne (h : AreWords escape.char ws) :
    (Text.joinWith " " ws).getLast? ≠ some escape.char := by
  rw [Text.getLast?_joinWith h.words]
  intro hlast
  obtain ⟨w, hw, hc⟩ := Option.bind_eq_some_iff.mp hlast
  exact h.last w hw hc

theorem getLast?_exec (ws : List Text) :
    (Json.render (.array (ws.map .text))).getLast? = some ']' := by
  rw [Json.render, Json.array, List.getLast?_concat]

theorem getLast?_exec_ne (ws : List Text) (escape : Escape) :
    (Json.render (.array (ws.map .text))).getLast? ≠ some escape.char := by
  rw [getLast?_exec]
  cases escape <;> decide

theorem exists_exec_eq (ws : List Text) :
    ∃ t, Json.render (.array (ws.map .text)) = '[' :: t := by
  rw [Json.render]
  exact ⟨_, rfl⟩

theorem isTight_exec (ws : List Text) : Text.IsTight (Json.render (.array (ws.map .text))) := by
  obtain ⟨t, ht⟩ := exists_exec_eq ws
  refine ⟨by rw [ht]; exact List.cons_ne_nil _ _, Text.strip_eq_self_of_head (fun c hc => ?_)
    (Text.stripRight_eq_self_iff.mpr fun c hc => ?_)⟩
  · rw [ht] at hc
    obtain rfl := Option.some.inj hc
    decide
  · rw [getLast?_exec] at hc
    obtain rfl := Option.some.inj hc
    decide

/-- The step is what its line says, in either form. -/
theorem isPrintable (h : AreWords escape.char ws) {op : Opcode} (hop : op.takesHeredoc = true)
    (n : Nat) (commented execForm : Bool) :
    Dockerfile.IsPrintable escape.char (wordStep op ws n commented execForm) := by
  have hopcode : Dockerfile.opcodeOf op.name = op := by
    cases op with
    | other name => exact absurd hop (by simp [Opcode.takesHeredoc])
    | _ => rfl
  have hadmitted (arguments : Text) : Dockerfile.refusal? op.name arguments = none :=
    Dockerfile.refusal?_of_takesHeredoc (hopcode.symm ▸ hop) arguments
  have hkeyword := Dockerfile.isKeyword_of_admitted (hadmitted [])
  cases execForm with
  | false =>
    exact
      { keyword := hkeyword
        opcode := hopcode
        stripped := (Text.isTight_joinWith h.words h.ne_nil).2
        line := Text.isLine_joinWith h.words
        ends := h.getLast?_shell_ne
        admitted := hadmitted _
        split := h.splitArguments_shell
        bodiless := h.markersOf_shell _ _ }
  | true =>
    exact
      { keyword := hkeyword
        opcode := hopcode
        stripped := (isTight_exec ws).2
        line := (Json.isPlainAscii_texts ws).isLine
        ends := getLast?_exec_ne ws escape
        admitted := hadmitted _
        split := splitArguments_exec ws
        bodiless := Dockerfile.markersOf_exec _ _ }

end AreWords

/-! ## Whole texts -/

namespace Dockerfile

theorem warning_place_printed {escape : Char} {i : Instruction} (h : IsPrintable escape i)
    (hop : i.opcode.takesHeredoc = true) (n : Nat) (commented : Bool) :
    ((printedReading i).place n commented).warning = none := by
  unfold Reading.place printedReading
  dsimp only
  rw [h.opcode, if_pos (Opcode.isKnown_of_takesHeredoc hop)]

/-- A line of words in either form is the same step but for its form, whatever stands below it. -/
theorem exists_parse_words {a : Text} {before : Dockerfile} (ha : parse a = .ok before)
    (hend : ∀ c ∈ (withoutMark a).getLast?, Text.isLineEnd c = true) {ws : List Text}
    (h : AreWords before.escape.char ws) {op : Opcode} (hop : op.takesHeredoc = true) :
    ∃ commented : Bool, ∀ r : Text, (∀ c ∈ r.head?, Text.isLineEnd c = true) →
      ∃ below : Except ParseError (List Statement), (r = [] → below = .ok []) ∧
        ∀ execForm : Bool,
          parse (a ++ ((op.name ++ ' ' :: argumentText execForm ws) ++ r)) =
            below.map fun statements =>
              { instructions := before.instructions ++
                  wordStep op ws (physicalLines a).length commented execForm ::
                    statements.map Statement.instruction
                warnings := before.warnings ++ statements.filterMap Statement.warning
                escape := before.escape } := by
  obtain ⟨commented, hparse⟩ := exists_parse_append ha hend
  refine ⟨commented, fun r hr => ?_⟩
  obtain ⟨below, hbelow⟩ := Text.exists_lines_append_of_lineEnd hr
  refine ⟨readStatements before.escape.char ((physicalLines a).length + 1) false below, ?_, ?_⟩
  · rintro rfl
    have hlines : Text.lines (['a'] ++ []) = ['a'] :: below := hbelow ['a'] (by simp) (by decide)
    obtain rfl : [] = below := (List.cons.inj hlines).2
    exact readStatements_nil
  · intro execForm
    have hi := h.isPrintable hop (physicalLines a).length commented execForm
    obtain ⟨c, line, hline, hletter⟩ := exists_letter_of_printed hi
    have hlines := hbelow _ (by rw [hline]; simp) (isLine_printed hi)
    have hhead : ((wordStep op ws (physicalLines a).length commented execForm).printed ++ r).head? =
        some c := by
      rw [hline]
      rfl
    have hstep := hparse _ c _ _ hhead hletter hlines (solid_printed hi)
    rw [readStatements_printed_cons hi] at hstep
    refine hstep.trans ?_
    have hplace := instruction_place_printed hi (physicalLines a).length commented
    have hwarning := warning_place_printed hi hop (physicalLines a).length commented
    cases readStatements before.escape.char ((physicalLines a).length + 1) false below with
    | error e => rfl
    | ok statements =>
      refine congrArg Except.ok ?_
      dsimp only
      rw [List.map_cons, hplace, List.filterMap_cons_none hwarning]
      rfl

end Dockerfile

end Drydock
