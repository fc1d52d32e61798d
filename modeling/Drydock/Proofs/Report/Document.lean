/-
  The document form of a report. It is printable ASCII on one line, so it is printed alike on a
  terminal and off one, and it is read as the records of the findings (`records_of_renderJson`). So
  whatever depends on the findings of a report depends on its document, such as the code of its
  process.
-/
import Drydock.Proofs.Json.Documents
import Drydock.Proofs.Text.Plain
import Drydock.Proofs.Text.Utf8
import Drydock.Report.Render

namespace Drydock

/-! ## Reading -/

/-- The finding that an object shows. -/
def Finding.ofTable? (entries : Table) : Option Finding :=
  match entries.get? "rule_id", entries.get? "severity", entries.get? "line",
    entries.get? "message" with
  | some (.text ruleId), some (.text name), some (.integer line), some (.text message) =>
    (Severity.ofName? name).map fun severity => ⟨ruleId, severity, line, message⟩
  | _, _, _, _ => none

namespace Report

/-- The findings in a document. -/
def findings? (document : Text) : Option (List Finding) :=
  match Json.read? document with
  | some (.array items) => items.mapM fun v => v.table?.bind Finding.ofTable?
  | _ => none

/-- The members of a finding's object in the order of their keys. -/
def sortedMembers (f : Finding) : Table :=
  [("line", .integer f.line), ("message", .text f.message), ("rule_id", .text f.ruleId),
    ("severity", .text f.severity.name)]

theorem ofTable?_sortedMembers (f : Finding) : Finding.ofTable? (sortedMembers f) = some f := by
  show (Severity.ofName? f.severity.name).map _ = _
  rw [Severity.ofName?_name, Option.map_some]

theorem render_findingValue (f : Finding) : Json.render (findingValue f) =
    Json.object
      [("rule_id", Json.string f.ruleId), ("severity", Json.string f.severity.name),
        ("line", Text.ofInt f.line), ("message", Json.string f.message)] := by
  simp only [findingValue, Json.render, Json.renderEntries]

theorem reads_findingValue (f : Finding) :
    Json.Reads none (Json.render (findingValue f)) (.table (sortedMembers f)) := by
  rw [render_findingValue]
  refine Json.reads_object ?_ (by simp [sortedMembers])
  have hsorted (ruleId name line message : Text) :
      ([("rule_id", ruleId), ("severity", name), ("line", line), ("message", message)] :
        List (Text × Text)).mergeSort (fun a b => Text.isAtMost a.1 b.1) =
      ([("line", line), ("message", message), ("rule_id", ruleId), ("severity", name)] :
        List (Text × Text)) := by
    simp [List.mergeSort, List.MergeSort.Internal.splitInTwo, Text.isAtMost]
  rw [hsorted]
  exact .cons ⟨rfl, Json.reads_integer (Json.isAllowed_none _)⟩ (.cons ⟨rfl, Json.reads_string _⟩
    (.cons ⟨rfl, Json.reads_string _⟩ (.cons ⟨rfl, Json.reads_string _⟩ .nil)))

/-- The document of a report is read as the objects of its findings, in their order. -/
theorem read?_renderJson (r : Report) :
    Json.read? r.renderJson =
      some (.array (r.findings.map fun f => .table (sortedMembers f))) := by
  have hreads : Json.Reads none r.renderJson
      (.array (r.findings.map fun f => .table (sortedMembers f))) := by
    rw [renderJson, Json.render, Json.renderItems_eq]
    refine Json.reads_array (List.forall₂_map_left_iff.mpr (List.forall₂_map_left_iff.mpr
      (List.forall₂_map_right_iff.mpr (List.forall₂_same.mpr fun f _ => ?_))))
    exact reads_findingValue f
  rw [Json.read?, Json.read_of_reads hreads]
  rfl

/-- The findings of a report are read back from its document. -/
theorem findings?_renderJson (r : Report) : findings? r.renderJson = some r.findings := by
  rw [findings?, read?_renderJson]
  dsimp only
  rw [List.mapM_map]
  simp only [Function.comp_def, Value.table?, Option.bind_some, ofTable?_sortedMembers]
  exact List.mapM_pure.trans (congrArg some (List.map_id _))

/-- Nothing but the findings of a report is in its document, and all of each of them. -/
theorem renderJson_eq_iff {r other : Report} :
    other.renderJson = r.renderJson ↔ other.findings = r.findings := by
  constructor
  · intro heq
    have hread := findings?_renderJson other
    rw [heq, findings?_renderJson] at hread
    exact (Option.some.inj hread).symm
  · intro heq
    rw [renderJson, renderJson, heq]

/-! ## Printing -/

/-- A text without escape characters has no control sequences to lose. -/
theorem plain_of_isPlainAscii {t : Text} (h : Json.IsPlainAscii t) : Text.plain t = t :=
  Text.plain_of_not_mem fun hescape => absurd (h _ hescape).1 (by decide)

theorem isPlainAscii_findingValue (f : Finding) :
    Json.IsPlainAscii (Json.render (findingValue f)) := by
  rw [render_findingValue]
  refine Json.isPlainAscii_object ?_
  simp only [List.forall_mem_cons]
  exact ⟨Json.isPlainAscii_string _, Json.isPlainAscii_string _, Json.isPlainAscii_ofInt _,
    Json.isPlainAscii_string _, fun d hd => absurd hd List.not_mem_nil⟩

theorem isPlainAscii_renderJson (r : Report) : Json.IsPlainAscii r.renderJson := by
  rw [renderJson, Json.render, Json.renderItems_eq]
  refine Json.isPlainAscii_array fun d hd => ?_
  rw [List.map_map] at hd
  obtain ⟨f, -, rfl⟩ := List.mem_map.mp hd
  exact isPlainAscii_findingValue f

/--
The document of a report lies on one line of ASCII. It is read as the records of its findings, in
their order, whatever characters are in their texts; so reports with other findings have another
document.
-/
theorem records_of_renderJson (r : Report) :
    ((∀ c ∈ r.renderJson, c.toNat < 0x80) ∧ Text.IsLine r.renderJson) ∧
    Json.read? r.renderJson = some (.array (r.findings.map fun f =>
      .table
        [("line", .integer f.line), ("message", .text f.message), ("rule_id", .text f.ruleId),
          ("severity", .text f.severity.name)])) ∧
    ∀ other : Report, other.renderJson = r.renderJson ↔ other.findings = r.findings := by
  have hplain := isPlainAscii_renderJson r
  refine ⟨⟨fun c hc => ?_, hplain.isLine⟩, read?_renderJson r,
    fun other => renderJson_eq_iff⟩
  obtain ⟨-, hhigh⟩ := hplain c hc
  omega

/-! ## Codes -/

/-- The code of a process, by what was found, whether the time was up and whether warnings count. -/
def codeOf (findings : List Finding) (timedOut strict : Bool) : Nat :=
  if timedOut then 2
  else if (∃ f ∈ findings, f.severity = .error) ∨
      (strict = true ∧ ∃ f ∈ findings, f.severity = .warning) then 1
  else 0

theorem exitCode_eq_codeOf (r : Report) (strict : Bool) :
    r.exitCode strict = codeOf r.findings r.timedOut strict := by
  have hany (s : Severity) : (r.findings.any fun f => f.severity = s) = true ↔
      ∃ f ∈ r.findings, f.severity = s := by simp
  unfold exitCode codeOf status
  simp only [hany]
  by_cases herror : ∃ f ∈ r.findings, f.severity = .error
  · rw [if_pos herror, if_pos (Or.inl herror)]
  · rw [if_neg herror]
    by_cases hwarning : ∃ f ∈ r.findings, f.severity = .warning
    · cases strict <;> simp [herror, hwarning]
    · simp [herror, hwarning]

/-- The code of a process, by the octets of the document of its report. -/
def codeOfDocument? (octets : Text.Octets) (timedOut strict : Bool) : Option Nat := do
  let document ← (Text.Utf8.decode octets).toOption
  let findings ← findings? document
  pure (codeOf findings timedOut strict)

theorem codeOfDocument?_renderJson (r : Report) (strict : Bool) :
    codeOfDocument? (Text.Utf8.encode r.renderJson) r.timedOut strict =
      some (r.exitCode strict) := by
  rw [codeOfDocument?, Text.Utf8.decode_encode, exitCode_eq_codeOf]
  show (findings? r.renderJson).bind _ = _
  rw [findings?_renderJson]
  rfl

end Report

end Drydock
