/-
  Rules and the form of a command. The rules about copies, commands and left artifacts see no more
  of a step than what it does and where; so they find the same when steps change that keep both, as
  a line of words does when it is written as an array of strings (`inspect_execForm`).
-/
import Drydock.Proofs.Dockerfile.ExecForm
import Drydock.Proofs.Rule.Renumbering

namespace Drydock.Rule

open Instruction (KeepsDeeds)

/-! ## Remarks on changed steps -/

section Remarks

variable {f : Instruction → Instruction}

theorem contextCopyRemarks_map (h : KeepsDeeds f) (hline : ∀ i, (f i).line = i.line)
    (instructions : List Instruction) :
    contextCopyRemarks (instructions.map f) = contextCopyRemarks instructions := by
  have hcopies : Instruction.copiesContext ∘ f = Instruction.copiesContext :=
    funext h.copiesContext
  unfold contextCopyRemarks contextCopyMessage
  rw [List.filter_map, hcopies, List.map_map]
  refine List.map_congr_left fun i _ => ?_
  rw [Function.comp_apply, hline, h.opcode]

/-- The remarks on the order of layers, group by group of the division into stages. -/
theorem layerOrderRemarks_eq (instructions : List Instruction) :
    layerOrderRemarks instructions = (Stage.divide instructions).2.filterMap fun g =>
      (copyBeforeInstall? g.2).map fun pair => ((pair.1.line : Int), layerOrderMessage pair.2) := by
  unfold layerOrderRemarks Stage.split
  dsimp only
  rw [List.filterMap_map]
  conv => rhs; rw [← List.zipIdx_map_fst 0 (Stage.divide instructions).2, List.filterMap_map]
  rfl

theorem layerOrderRemarks_map (h : KeepsDeeds f) (hline : ∀ i, (f i).line = i.line)
    (instructions : List Instruction) :
    layerOrderRemarks (instructions.map f) = layerOrderRemarks instructions := by
  rw [layerOrderRemarks_eq, layerOrderRemarks_eq, Stage.divide_map h.opcode, List.filterMap_map]
  refine congrArg (fun remark => List.filterMap remark _) (funext fun g => ?_)
  rw [Function.comp_apply, Prod.map_snd, copyBeforeInstall?_map h, Option.map_map]
  refine congrArg (fun remark => Option.map remark _) (funext fun pair => ?_)
  rw [Function.comp_apply, Prod.map_fst, Prod.map_snd, hline, layerOrderMessage, hline,
    layerOrderMessage]

theorem installBlockRemarks_map (h : KeepsDeeds f) (hline : ∀ i, (f i).line = i.line)
    (instructions : List Instruction) :
    installBlockRemarks (instructions.map f) = installBlockRemarks instructions := by
  have hlines (block : List Instruction) :
      (block.map f).map (fun i => Text.ofNat i.line) = block.map fun i => Text.ofNat i.line := by
    rw [List.map_map]
    exact List.map_congr_left fun i _ => congrArg Text.ofNat (hline i)
  have hfirst (block : List Instruction) : firstLine (block.map f) = firstLine block := by
    cases block with
    | nil => rfl
    | cons i block => exact congrArg Nat.cast (hline i)
  unfold installBlockRemarks installBlockMessage
  rw [installBlocks_map h, List.map_map]
  refine List.map_congr_left fun block _ => ?_
  rw [Function.comp_apply, hfirst, List.length_map, hlines]

theorem missingTestRemarks_map (h : KeepsDeeds f) (hline : ∀ i, (f i).line = i.line)
    (instructions : List Instruction) :
    missingTestRemarks (instructions.map f) = missingTestRemarks instructions := by
  have habove (entry : Option Instruction) : stepsAbove (entry.map f) (instructions.map f) =
      (stepsAbove entry instructions).map f := by
    unfold stepsAbove
    rw [List.takeWhile_map]
    refine congrArg _ (takeWhile_congr fun i _ => ?_)
    cases entry with
    | none => rfl
    | some e =>
      show decide ((f i).line < (f e).line) = decide (i.line < e.line)
      rw [hline, hline]
  have hruns : Instruction.runsTests ∘ f = Instruction.runsTests := funext h.runsTests
  have hentry (entry : Option Instruction) :
      (entry.map f).map Instruction.line = entry.map Instruction.line := by
    rw [Option.map_map]
    exact congrArg (fun line => entry.map line) (funext hline)
  unfold missingTestRemarks
  dsimp only
  rw [finalEntryStep?_map h, habove, List.any_map, hruns, List.isEmpty_map, hentry]

theorem Removal.after_map (h : KeepsDeeds f) (hline : ∀ i, (f i).line = i.line)
    (created : Created) (instructions : List Instruction) :
    after created (instructions.map f) = after created instructions := by
  induction instructions generalizing created with
  | nil => rfl
  | cons i rest ih =>
    rw [List.map_cons, after, after, h.opcode, hline, h.removedFiles, h.createdFiles, ih, ih]
    dsimp only
    rw [ih]

theorem artifactRemarks_map (h : KeepsDeeds f) (hline : ∀ i, (f i).line = i.line)
    (instructions : List Instruction) :
    artifactRemarks (instructions.map f) = artifactRemarks instructions := by
  rw [artifactRemarks, Removal.after_map h hline, artifactRemarks]

end Remarks

/-! ## Rules -/

/-- A rule finds the same when steps change that keep what they do, and where. -/
def SeesDeeds (r : Rule) : Prop :=
  ∀ f : Instruction → Instruction, KeepsDeeds f → (∀ i, (f i).line = i.line) →
    ∀ instructions, r.inspect (instructions.map f) = r.inspect instructions

theorem seesDeeds_ofRemarks {id : Text} {severity : Severity}
    {remarks : List Instruction → List Remark}
    (h : ∀ {f : Instruction → Instruction}, KeepsDeeds f → (∀ i, (f i).line = i.line) →
      ∀ instructions, remarks (instructions.map f) = remarks instructions) :
    (ofRemarks id severity remarks).SeesDeeds := by
  intro f hf hline instructions
  rw [ofRemarks]
  dsimp only
  rw [h hf hline]

theorem SeesDeeds.withSeverity {r : Rule} (h : r.SeesDeeds) (severity : Severity) :
    (r.withSeverity severity).SeesDeeds := by
  unfold Rule.withSeverity
  split
  · exact h
  · intro f hf hline instructions
    dsimp only
    rw [h f hf hline]

/-- Of two steps that do the same on the same line either may stand for the other. -/
theorem SeesDeeds.inspect_replace {r : Rule} (h : r.SeesDeeds) {i j : Instruction}
    (hopcode : j.opcode = i.opcode) (hcommand : j.command = i.command)
    (hsources : j.copySources = i.copySources) (hline : j.line = i.line)
    (front behind : List Instruction) :
    r.inspect (front ++ j :: behind) = r.inspect (front ++ i :: behind) := by
  -- Both lists are the same once `i` is put in the place of every `j`.
  let f : Instruction → Instruction := fun k => if k = j then i else k
  have hf {α : Type} (field : Instruction → α) (heq : field j = field i) (k : Instruction) :
      field (f k) = field k := by
    by_cases hk : k = j
    · rw [show f k = i from if_pos hk, hk, heq]
    · rw [show f k = k from if_neg hk]
  have hkeeps : KeepsDeeds f :=
    ⟨hf Instruction.opcode hopcode, hf Instruction.command hcommand,
      hf Instruction.copySources hsources⟩
  have hi : f i = i := by
    by_cases hij : i = j
    · exact if_pos hij
    · exact if_neg hij
  have hj : f j = i := if_pos rfl
  rw [← h f hkeeps (hf Instruction.line hline) (front ++ j :: behind),
    ← h f hkeeps (hf Instruction.line hline) (front ++ i :: behind), List.map_append,
    List.map_append, List.map_cons, List.map_cons, hi, hj]

theorem copySources_wordStep {escape : Char} {ws : List Text} (h : AreWords escape ws) (op : Opcode)
    (n : Nat) (commented execForm : Bool) :
    (wordStep op ws n commented execForm).copySources = ws.dropLast := by
  obtain ⟨w, rest, rfl⟩ := List.exists_cons_of_ne_nil h.ne_nil
  have hflag := (h.first w rfl).2
  cases execForm with
  | true => rfl
  | false =>
    have hflags : (wordStep op (w :: rest) n commented false).flags = [] :=
      List.takeWhile_cons_of_neg (by simp [hflag])
    have hpositional : (wordStep op (w :: rest) n commented false).positional = w :: rest :=
      List.dropWhile_cons_of_neg (by simp [hflag])
    rw [Instruction.copySources, Instruction.options, hflags, hpositional]
    rfl

theorem seesDeeds_of_mem {r : Rule}
    (hr : r ∈ [consolidateRun, cleanupArtifacts, layerCachingOrder, specificCopy, hasTestStep]) :
    r.SeesDeeds := by
  simp only [List.mem_cons, List.not_mem_nil, or_false] at hr
  rcases hr with rfl | rfl | rfl | rfl | rfl
  · exact consolidateRun_eq ▸ seesDeeds_ofRemarks installBlockRemarks_map
  · exact cleanupArtifacts_eq ▸ seesDeeds_ofRemarks artifactRemarks_map
  · exact layerCachingOrder_eq ▸ seesDeeds_ofRemarks layerOrderRemarks_map
  · exact seesDeeds_ofRemarks contextCopyRemarks_map
  · exact seesDeeds_ofRemarks missingTestRemarks_map

/--
Words of a command say the same between blanks and in an array of strings. Behind the front of a
Dockerfile, either line is read as a step with the same opcode, arguments and lines, alone or with
whatever stands below it. In any row of steps either of the two may stand for the other, and the
rules about commands, copies and left artifacts find the same.
-/
theorem inspect_execForm (a : Text) (before : Dockerfile) (op : Opcode) (ws : List Text)
    (ha : Dockerfile.parse a = .ok before)
    (hend : ∀ c ∈ (Dockerfile.withoutMark a).getLast?, Text.isLineEnd c = true)
    (hop : op ∈ [Opcode.run, .copy, .add]) (hws : AreWords before.escape.char ws) :
    ∃ shell exec : Instruction,
      (∀ i ∈ [shell, exec], i.opcode = op ∧ i.arguments = ws ∧
        i.line = (Dockerfile.physicalLines a).length + 1 ∧ i.endLine = i.line) ∧
      shell.execForm = false ∧ exec.execForm = true ∧
      Dockerfile.parse (a ++ (op.name ++ ' ' :: Text.joinWith " " ws)) =
        .ok { before with instructions := before.instructions ++ [shell] } ∧
      Dockerfile.parse (a ++ (op.name ++ ' ' :: Json.render (.array (ws.map .text)))) =
        .ok { before with instructions := before.instructions ++ [exec] } ∧
      (∀ below : Text, (∀ c ∈ below.head?, Text.isLineEnd c = true) →
        match Dockerfile.parse (a ++ ((op.name ++ ' ' :: Text.joinWith " " ws) ++ below)) with
        | .error e =>
          Dockerfile.parse (a ++ ((op.name ++ ' ' :: Json.render (.array (ws.map .text))) ++ below)) =
            .error e
        | .ok d => ∃ later, d.instructions = before.instructions ++ shell :: later ∧
          Dockerfile.parse (a ++ ((op.name ++ ' ' :: Json.render (.array (ws.map .text))) ++ below)) =
            .ok { d with instructions := before.instructions ++ exec :: later }) ∧
      ∀ r ∈ [consolidateRun, cleanupArtifacts, layerCachingOrder, specificCopy, hasTestStep],
        ∀ (severity : Severity) (front behind : List Instruction),
          (r.withSeverity severity).inspect (front ++ exec :: behind) =
            (r.withSeverity severity).inspect (front ++ shell :: behind) := by
  have htakes : op.takesHeredoc = true := by
    simp only [List.mem_cons, List.not_mem_nil, or_false] at hop
    rcases hop with rfl | rfl | rfl <;> rfl
  obtain ⟨commented, hparse⟩ := Dockerfile.exists_parse_words ha hend hws htakes
  let step : Bool → Instruction := wordStep op ws (Dockerfile.physicalLines a).length commented
  have halone (execForm : Bool) :
      Dockerfile.parse (a ++ (op.name ++ ' ' :: argumentText execForm ws)) =
        .ok { before with instructions := before.instructions ++ [step execForm] } := by
    obtain ⟨below, hbelow, hread⟩ := hparse [] fun c hc => absurd hc (by simp)
    have h := hread execForm
    rw [hbelow rfl, List.append_nil] at h
    rw [h]
    simp [Except.map, step]
  refine ⟨step false, step true, ?_, rfl, rfl, halone false, halone true, fun below hbelow => ?_,
    fun r hr severity front behind => ?_⟩
  · intro i hi
    simp only [List.mem_cons, List.not_mem_nil, or_false] at hi
    rcases hi with rfl | rfl <;> exact ⟨rfl, rfl, rfl, rfl⟩
  · obtain ⟨rest, -, hread⟩ := hparse below hbelow
    have hshell : Dockerfile.parse (a ++ ((op.name ++ ' ' :: Text.joinWith " " ws) ++ below)) = _ :=
      hread false
    rw [hshell]
    cases rest with
    | error e => exact hread true
    | ok statements => exact ⟨_, rfl, hread true⟩
  · have hsources : (step true).copySources = (step false).copySources :=
      (copySources_wordStep hws op _ commented true).trans
        (copySources_wordStep hws op _ commented false).symm
    exact ((seesDeeds_of_mem hr).withSeverity severity).inspect_replace (i := step false)
      (j := step true) rfl rfl hsources rfl front behind

/-- A word with a quote, a backslash and a letter beyond ASCII, all of which an array escapes. -/
theorem inspect_execForm_of_escaped_word : ∃ (before : Dockerfile) (shell exec : Instruction),
    Dockerfile.parse "FROM a\nRUN pip install é\"\\u" =
      .ok { before with instructions := before.instructions ++ [shell] } ∧
    Dockerfile.parse "FROM a\nRUN [\"pip\", \"install\", \"\\u00e9\\\"\\\\u\"]" =
      .ok { before with instructions := before.instructions ++ [exec] } ∧
    shell.arguments = (["pip", "install", "é\"\\u"] : List Text) ∧
    exec.arguments = shell.arguments ∧ shell.execForm = false ∧ exec.execForm = true ∧
    (consolidateRun.withSeverity .error).inspect [exec, exec] =
      (consolidateRun.withSeverity .error).inspect [shell, exec] := by
  let before : Dockerfile :=
    { instructions := [{ opcode := .base, arguments := ["a"], line := 1, endLine := 1, raw := "a" }]
      warnings := []
      escape := .backslash }
  let ws : List Text := ["pip", "install", "é\"\\u"]
  have hread : Dockerfile.parse "FROM a\n" = .ok before := by decide +kernel
  have hend : ∀ c ∈ (Dockerfile.withoutMark "FROM a\n").getLast?, Text.isLineEnd c = true := by
    intro c hc
    have hlast : (Dockerfile.withoutMark "FROM a\n").getLast? = some '\n' := by decide
    obtain rfl := Option.some.inj (hlast.symm.trans hc)
    rfl
  have hws : AreWords before.escape.char ws :=
    { ne_nil := by decide
      words := by decide
      first := by decide
      unannounced := by decide
      last := by decide }
  have hmem : consolidateRun ∈
      [consolidateRun, cleanupArtifacts, layerCachingOrder, specificCopy, hasTestStep] := .head _
  obtain ⟨shell, exec, heq, hshell, hexec, halone, harray, -, hinspect⟩ :=
    inspect_execForm "FROM a\n" before .run ws hread hend (.head _) hws
  have htext : "FROM a\n".toList ++ (Opcode.run.name ++ ' ' :: Json.render (.array (ws.map .text))) =
      "FROM a\nRUN [\"pip\", \"install\", \"\\u00e9\\\"\\\\u\"]".toList := by decide +kernel
  rw [htext] at harray
  exact ⟨before, shell, exec, halone, harray, (heq shell (.head _)).2.1,
    (heq exec (.tail _ (.head _))).2.1.trans (heq shell (.head _)).2.1.symm, hshell, hexec,
    hinspect _ hmem .error [] [exec]⟩

end Drydock.Rule
