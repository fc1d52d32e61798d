/-
  What rules about base images judge. They pass over a base that has a variable without a value.
  But the value that a variable has is put in as it was written, so a base that is judged may refer
  to variables still: just as far as dollar signs are left (`references_of_bases`).
-/
import Drydock.Dockerfile.Parser
import Drydock.Proofs.Dockerfile.Image
import Drydock.Proofs.Rule.Scope
import Drydock.Proofs.Text.Case

namespace Drydock

/-! ## The parts of a base image -/

namespace Text

theorem cut_fst_subset (separator : Char) (t : Text) : (cut separator t).1 ⊆ t := by
  induction t with
  | nil => exact List.Subset.refl _
  | cons c t ih =>
    by_cases hc : c = separator
    · simp [cut, hc]
    · simpa [cut, hc] using List.Subset.trans ih (List.subset_cons_self c t)

end Text

namespace ImageReference

theorem splitTag_subset (t : Text) :
    (splitTag t).1 ⊆ t ∧ ∀ tag ∈ (splitTag t).2, tag ⊆ t := by
  unfold splitTag
  split
  · rename_i name tag hcut
    split
    · exact ⟨List.Subset.refl _, by simp⟩
    · rw [Text.cutLast?_eq_append hcut]
      refine ⟨List.subset_append_left _ _, ?_⟩
      rintro _ ⟨rfl⟩
      simp
  · exact ⟨List.Subset.refl _, by simp⟩

/-- The name and the tag of an image are parts of its text. -/
theorem dollar_not_mem_parts {i : Instruction} {values : OrderedMap Text Text}
    (h : '$' ∉ (ofInstruction i values).text) :
    '$' ∉ (ofInstruction i values).name ∧ ∀ tag ∈ (ofInstruction i values).tag, '$' ∉ tag := by
  obtain ⟨hname, htag⟩ := splitTag_subset (Text.cut '@' (ofInstruction i values).text).1
  have hnamed := Text.cut_fst_subset '@' (ofInstruction i values).text
  refine ⟨fun hdollar => h (hnamed (hname (Text.mem_of_mem_lower (by decide) (by decide) hdollar))), ?_⟩
  intro tag hmem hdollar
  obtain ⟨found, hfound, hnonempty⟩ := Option.bind_eq_some_iff.mp hmem
  have hsame : found = tag := by
    unfold nonempty? at hnonempty
    split at hnonempty
    · exact absurd hnonempty (by simp)
    · exact Option.some.inj hnonempty
  exact h (hnamed (htag found hfound (hsame ▸ hdollar)))

end ImageReference

/-! ## Base images -/

namespace Stage

/-- What a stage is to be built on, as it is written. -/
def target (s : Stage) : Text := s.opening.positional.head?.getD []

end Stage

namespace Rule

theorem resolved_of_tagFault? {base : ImageReference} {message : Text}
    (h : tagFault? base = some message) : base.resolved = true := by
  unfold tagFault? at h
  split at h
  · exact absurd h (by simp)
  · rename_i hjudged
    by_contra hopen
    exact hjudged (by simp [hopen])

/--
A base counts as resolved just if each reference in it without modifier has a value, and the values
are those of arguments that are declared before the first stage. A value or a word that is put in is
not looked into: where a reference begins in one, the base contains it, resolved or not, and there
are no other references in the base. So where no dollar sign is left, in what is put in or beside
the references, there is no reference in the text of a base, in its name, or in its tag. Rules about
base images judge resolved ones only.
-/
theorem references_of_bases (instructions : List Instruction) (denylist : List Text) :
    let stages := (Stage.split instructions).stages
    let values := (Stage.split instructions).globalArgs
    (∀ name value, values.get? name = some value →
      value ≠ [] ∧ ∃ i ∈ (Stage.divide instructions).1,
        i.opcode = .arg ∧ (name, value) ∈ i.keyValues.entries ∧ value ⊆ i.raw) ∧
    (∀ s ∈ stages,
      (s.base.resolved = true ↔ ∀ name, .reference name none ∈ Segment.ofText s.target →
        ∃ value, values.get? name = some value) ∧
      (s.base.text.HasReference ↔ ∃ front segment back,
        Segment.ofText s.target = front ++ segment :: back ∧
          segment.BeginsReference values back) ∧
      (∀ segment ∈ Segment.ofText s.target,
        (segment.expand values).HasReference → s.base.text.HasReference) ∧
      (s.target.mayKeepDollar values = false →
        ¬s.base.text.HasReference ∧ ¬s.base.name.HasReference ∧
          ∀ tag ∈ s.base.tag, ¬tag.HasReference)) ∧
    ∀ remark ∈ tagRemarks instructions ++ fullImageRemarks denylist instructions,
      ∃ s ∈ stages, s.base.resolved = true ∧ remark.1 = s.base.line ∧
        (tagFault? s.base = some remark.2 ∨ fullImageMessage s.base.text = remark.2) := by
  refine ⟨fun name value => Stage.exists_declaration, fun s hs => ?_, fun remark hremark => ?_⟩
  · rw [Stage.base_of_mem_split hs]
    refine ⟨Text.resolved_expand_iff, Text.hasReference_flatMap_iff,
      fun segment => Text.hasReference_expand, fun hdollar => ?_⟩
    have htext : '$' ∉ (s.target.expand (Stage.split instructions).globalArgs).text := by
      intro h
      rw [Text.mayKeepDollar_of_mem_expand h] at hdollar
      exact absurd hdollar (by simp)
    obtain ⟨hname, htag⟩ := ImageReference.dollar_not_mem_parts htext
    exact ⟨mt Text.HasReference.dollar_mem htext, mt Text.HasReference.dollar_mem hname,
      fun tag hmem => mt Text.HasReference.dollar_mem (htag tag hmem)⟩
  · rcases List.mem_append.mp hremark with h | h
    · obtain ⟨s, hs, hline, hfault⟩ := exists_stage_of_mem_tagRemarksAfter h
      exact ⟨s, hs, resolved_of_tagFault? hfault, hline, Or.inl hfault⟩
    · obtain ⟨s, hs, hresolved, rfl⟩ := exists_stage_of_mem_fullImageRemarks h
      exact ⟨s, hs, hresolved, rfl, Or.inr rfl⟩

/-- A base image whose name is the value of an argument without dollar sign has no tag. -/
theorem references_of_bases_of_declared_name :
    ∃ (d : Dockerfile) (s : Stage),
      Dockerfile.parse "ARG A=x\nFROM $A\n" = .ok d ∧ (Stage.split d.instructions).stages = [s] ∧
      s.target.mayKeepDollar (Stage.split d.instructions).globalArgs = false ∧
      s.base.name = ("x" : Text) ∧ ¬s.base.text.HasReference ∧
      (2, missingTagMessage "x") ∈ tagRemarks d.instructions ∧ s.base.resolved = true := by
  let d : Dockerfile :=
    { instructions :=
        [{ opcode := .arg, arguments := ["A=x"], line := 1, endLine := 1, raw := "A=x" },
          { opcode := .base, arguments := ["$A"], line := 2, endLine := 2, raw := "$A" }]
      warnings := []
      escape := .backslash }
  obtain ⟨s, hstages, hdollar, hname, hremark⟩ : ∃ s,
      (Stage.split d.instructions).stages = [s] ∧
      s.target.mayKeepDollar (Stage.split d.instructions).globalArgs = false ∧
      s.base.name = ("x" : Text) ∧ (2, missingTagMessage "x") ∈ tagRemarks d.instructions := by
    refine ⟨_, rfl, ?_, ?_, ?_⟩ <;> decide +kernel
  have hs : s ∈ (Stage.split d.instructions).stages := hstages ▸ List.mem_singleton_self s
  obtain ⟨-, hbases, hremarks⟩ := references_of_bases d.instructions defaultDenylist
  obtain ⟨judged, hjudged, hresolved, -⟩ := hremarks _ (List.mem_append_left _ hremark)
  rw [hstages, List.mem_singleton] at hjudged
  exact ⟨d, s, by decide +kernel, hstages, hdollar, hname, ((hbases s hs).2.2.2 hdollar).1, hremark,
    hjudged ▸ hresolved⟩

/-- The value of an argument is another argument's name with a dollar sign. The base counts as
resolved, and it is the reference that is judged to have no tag. -/
theorem reference_judged_in_resolved_base :
    ∃ (d : Dockerfile) (s : Stage),
      Dockerfile.parse "ARG A=$B\nFROM $A\n" = .ok d ∧
      (Stage.split d.instructions).stages = [s] ∧ s.base.resolved = true ∧
      s.base.text.HasReference ∧ tagRemarks d.instructions = [(2, missingTagMessage "$b")] := by
  let d : Dockerfile :=
    { instructions :=
        [{ opcode := .arg, arguments := ["A=$B"], line := 1, endLine := 1, raw := "A=$B" },
          { opcode := .base, arguments := ["$A"], line := 2, endLine := 2, raw := "$A" }]
      warnings := []
      escape := .backslash }
  refine ⟨d, _, by decide +kernel, rfl, ?_, ?_, ?_⟩ <;> decide +kernel

end Rule

end Drydock
