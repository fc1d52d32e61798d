/-
  Chained commands. A text is taken apart at the marks that chain commands, so no part of it holds
  one (`of_mem_segmentsOf`). A mark between two spaces belongs to neither side, and the
  parts of the whole are those of the one side and those of the other (`segmentsOf_chained`). So
  tests run in chained commands just if they run in one of them (`tests_found_part_by_part`), and an
  installation is seen whatever it is chained with (`chained_installs_found`).
-/
import Drydock.Dockerfile.Parser
import Drydock.Proofs.Pattern
import Drydock.Proofs.Text.Word
import Drydock.Shell.Detection

namespace Drydock

namespace Text

/-! ## Marks -/

/-- The marks that chain commands. -/
def commandMarks : List Text := ["&&", "||", ";", "\n"]

variable {mark t : Text} {c : Char}

theorem splitCommands_append_mark (h : mark ∈ commandMarks) (t : Text) :
    splitCommands (mark ++ t) = [] :: splitCommands t := by
  simp only [commandMarks, List.mem_cons, List.not_mem_nil, or_false] at h
  rcases h with rfl | rfl | rfl | rfl
  · rfl
  · rfl
  · rfl
  · rfl

/-- Where no mark begins, a character belongs to the first part. -/
theorem splitCommands_cons (h : ∀ mark ∈ commandMarks, ¬mark <+: c :: t) :
    splitCommands (c :: t) = pushFront c (splitCommands t) := by
  have hand : ∀ u, c = '&' → t = '&' :: u → False := by
    rintro u rfl rfl
    exact h "&&" (by decide) ⟨u, rfl⟩
  have hor : ∀ u, c = '|' → t = '|' :: u → False := by
    rintro u rfl rfl
    exact h "||" (by decide) ⟨u, rfl⟩
  have hsingle : ¬(c = ';' ∨ c = '\n') := by
    rintro (rfl | rfl)
    · exact h ";" (by decide) ⟨t, rfl⟩
    · exact h "\n" (by decide) ⟨t, rfl⟩
  rw [splitCommands]
  · exact if_neg (by simpa using hsingle)
  · exact hand
  · exact hor

/-- A text is empty, or it begins with a mark, or with a character at which no mark begins. -/
@[elab_as_elim]
theorem command_induction {motive : Text → Prop} (nil : motive [])
    (chained : ∀ mark ∈ commandMarks, ∀ t, motive t → motive (mark ++ t))
    (cons : ∀ c t, (∀ mark ∈ commandMarks, ¬mark <+: c :: t) → motive t → motive (c :: t))
    (t : Text) : motive t := by
  induction t using splitCommands.induct with
  | case1 => exact nil
  | case2 t ih => exact chained "&&" (by decide) t ih
  | case3 t ih => exact chained "||" (by decide) t ih
  | case4 c t _ _ hmark ih =>
    rcases (by simpa using hmark : c = ';' ∨ c = '\n') with rfl | rfl
    · exact chained ";" (by decide) t ih
    · exact chained "\n" (by decide) t ih
  | case5 c t hand hor hmark ih =>
    refine cons c t (fun mark hmem hprefix => ?_) ih
    obtain ⟨u, hu⟩ := hprefix
    simp only [commandMarks, List.mem_cons, List.not_mem_nil, or_false] at hmem
    rcases hmem with rfl | rfl | rfl | rfl
    · obtain ⟨rfl, rfl⟩ := List.cons.inj hu
      exact hand u rfl rfl
    · obtain ⟨rfl, rfl⟩ := List.cons.inj hu
      exact hor u rfl rfl
    · obtain ⟨rfl, rfl⟩ := List.cons.inj hu
      exact hmark (by decide)
    · obtain ⟨rfl, rfl⟩ := List.cons.inj hu
      exact hmark (by decide)

/-! ## Parts -/

/-- A text has a first part, which stands at the front of it. -/
theorem exists_splitCommands_eq (t : Text) :
    ∃ first rest, splitCommands t = first :: rest ∧ first <+: t := by
  induction t using command_induction with
  | nil => exact ⟨[], [], rfl, List.nil_prefix⟩
  | chained mark hmark t ih =>
    exact ⟨[], _, splitCommands_append_mark hmark t, List.nil_prefix⟩
  | cons c t hplain ih =>
    obtain ⟨first, rest, hparts, hprefix⟩ := ih
    refine ⟨c :: first, rest, ?_, List.cons_prefix_cons.mpr ⟨rfl, hprefix⟩⟩
    rw [splitCommands_cons hplain, hparts, pushFront]

/-- No part of a text holds a mark. -/
theorem not_infix_of_mem_splitCommands {part : Text} (h : part ∈ splitCommands t)
    (hmark : mark ∈ commandMarks) : ¬mark <:+: part := by
  have hempty : ¬mark <:+: [] := by
    rw [List.infix_nil]
    rintro rfl
    exact absurd hmark (by decide)
  induction t using command_induction generalizing part with
  | nil =>
    obtain rfl := List.mem_singleton.mp h
    exact hempty
  | chained other hother t ih =>
    rw [splitCommands_append_mark hother] at h
    rcases List.mem_cons.mp h with rfl | h
    · exact hempty
    · exact ih h
  | cons c t hplain ih =>
    obtain ⟨first, rest, hparts, hprefix⟩ := exists_splitCommands_eq t
    rw [hparts] at ih
    rw [splitCommands_cons hplain, hparts, pushFront] at h
    rcases List.mem_cons.mp h with rfl | h
    · -- A mark in the first part begins at `c`, and so at the front of the text, or behind `c`.
      rw [List.infix_cons_iff, not_or]
      refine ⟨fun hbegin => hplain mark hmark (hbegin.trans ?_), ih List.mem_cons_self⟩
      exact List.cons_prefix_cons.mpr ⟨rfl, hprefix⟩
    · exact ih (List.mem_cons_of_mem _ h)

/-- A mark that does not begin in front of a space does not go over it. -/
theorem not_isPrefix_append_space (hmark : mark ∈ commandMarks) (h : ¬mark <+: t) (u : Text) :
    ¬mark <+: t ++ ' ' :: u := by
  rintro ⟨v, hv⟩
  rcases List.append_eq_append_iff.mp hv with ⟨more, rfl, -⟩ | ⟨more, rfl, hmore⟩
  · exact h ⟨more, rfl⟩
  · cases more with
    | nil => exact h ⟨[], by simp⟩
    | cons d more =>
      obtain ⟨rfl, -⟩ := List.cons.inj hmore
      have hspace : ∀ mark ∈ commandMarks, ' ' ∉ mark := by decide
      exact hspace _ hmark (List.mem_append_right t List.mem_cons_self)

theorem splitCommands_space_cons (t : Text) :
    splitCommands (' ' :: t) = pushFront ' ' (splitCommands t) := by
  refine splitCommands_cons fun mark hmark => ?_
  exact not_isPrefix_append_space (t := []) hmark
    (fun h => absurd (List.prefix_nil.mp h ▸ hmark) (by decide)) t

/-- In front of a space and a mark a text is taken apart for itself, but for the space. -/
theorem exists_splitCommands_append {u : Text} {rest : List Text}
    (hu : splitCommands u = [] :: rest) (t : Text) :
    ∃ parts last, splitCommands t = parts ++ [last] ∧
      splitCommands (t ++ ' ' :: u) = parts ++ (last ++ [' ']) :: rest := by
  induction t using command_induction with
  | nil => exact ⟨[], [], rfl, by rw [List.nil_append, splitCommands_space_cons, hu]; rfl⟩
  | chained mark hmark t ih =>
    obtain ⟨parts, last, hfront, hwhole⟩ := ih
    refine ⟨[] :: parts, last, ?_, ?_⟩
    · rw [splitCommands_append_mark hmark, hfront, List.cons_append]
    · rw [List.append_assoc, splitCommands_append_mark hmark, hwhole, List.cons_append]
  | cons c t hplain ih =>
    obtain ⟨parts, last, hfront, hwhole⟩ := ih
    have hplain' : ∀ mark ∈ commandMarks, ¬mark <+: c :: (t ++ ' ' :: u) := fun mark hmark =>
      not_isPrefix_append_space hmark (hplain mark hmark) u
    rw [splitCommands_cons hplain, List.cons_append, splitCommands_cons hplain', hfront, hwhole]
    cases parts with
    | nil => exact ⟨[], c :: last, rfl, rfl⟩
    | cons part parts => exact ⟨(c :: part) :: parts, last, rfl, rfl⟩

end Text

namespace Instruction

open Text (commandMarks)

variable {mark : Text}

/-! ## Parts of commands -/

/-- The step as one that runs a command, not written as an array of strings. -/
def shellRun (i : Instruction) (command : Text) : Instruction :=
  { i with opcode := .run, execForm := false, raw := command }

theorem segments_shellRun (i : Instruction) (command : Text) :
    (i.shellRun command).segments = segmentsOf command := rfl

theorem segmentsOf_space_cons (t : Text) : segmentsOf (' ' :: t) = segmentsOf t := by
  obtain ⟨first, rest, hparts, -⟩ := Text.exists_splitCommands_eq t
  have hstrip : Text.strip (' ' :: first) = Text.strip first :=
    Text.strip_blanks_append (List.forall_mem_singleton.mpr (by decide)) first
  unfold segmentsOf
  rw [Text.splitCommands_space_cons, hparts, pushFront, List.map_cons, List.map_cons, hstrip]

/-- Commands with a mark between them, and a space on either side of it, are taken apart one by
one. -/
theorem segmentsOf_chained (hmark : mark ∈ commandMarks) (a b : Text) :
    segmentsOf (Text.concat [a, " ", mark, " ", b]) = segmentsOf a ++ segmentsOf b := by
  obtain ⟨parts, last, hfront, hwhole⟩ := Text.exists_splitCommands_append
    (Text.splitCommands_append_mark hmark (' ' :: b)) a
  have hchained : Text.concat [a, " ", mark, " ", b] = a ++ ' ' :: (mark ++ ' ' :: b) := by
    simp [Text.concat]
  have hstrip : Text.strip (last ++ [' ']) = Text.strip last :=
    Text.strip_append_blanks last (List.forall_mem_singleton.mpr (by decide))
  rw [hchained, ← segmentsOf_space_cons b]
  unfold segmentsOf
  rw [hfront, hwhole, List.map_append, List.map_append, List.map_cons, List.map_singleton, hstrip,
    List.append_cons, List.filter_append]

/-- No part of a command holds a mark, and none is blank. -/
theorem of_mem_segmentsOf {command part : Text} (h : part ∈ segmentsOf command) :
    (∀ mark ∈ commandMarks, ¬mark <:+: part) ∧ Text.isBlankText part = false := by
  obtain ⟨hpart, hsome⟩ := List.mem_filter.mp h
  obtain ⟨whole, hwhole, rfl⟩ := List.mem_map.mp hpart
  constructor
  · intro mark hmark hheld
    exact Text.not_infix_of_mem_splitCommands hwhole hmark (hheld.trans (Text.strip_isInfix whole))
  · rcases Text.strip_eq_nil_or_isTight whole with hnone | htight
    · exact absurd hsome (by simp [hnone])
    · obtain ⟨c, u, hstrip, hc, -⟩ := (Text.isTight_iff _).mp htight
      rw [hstrip, Text.isBlankText, List.all_cons, hc, Bool.false_and]

/-! ## Tests -/

/-- A part of a command installs packages, or it leaves out tests. -/
def InstallsOrSkips (part : Text) : Prop :=
  Pattern.packageInstall.occursIn part = true ∨ Pattern.testSkip.occursIn part = true

instance (part : Text) : Decidable (InstallsOrSkips part) := inferInstanceAs (Decidable (_ ∨ _))

theorem runsTests_shellRun (i : Instruction) (command : Text) :
    (i.shellRun command).runsTests = (segmentsOf command).any isTestRun := by
  rw [runsTests, segments_shellRun]
  rfl

/-- What installs packages or leaves out tests runs none. -/
theorem runsTests_eq_false {i : Instruction} (h : ∀ part ∈ i.segments, InstallsOrSkips part) :
    i.runsTests = false := by
  have hnone : i.segments.any isTestRun = false := by
    refine List.any_eq_false.mpr fun part hpart => ?_
    unfold isTestRun
    rcases h part hpart with hinstalls | hskips
    · simp [hinstalls]
    · simp [hskips]
  rw [runsTests, hnone, Bool.and_false]

/--
Let two commands be chained by double ampersands, double bars, a semicolon or a line end, with a
space on either side. The parts of the whole are those of the first command and then those of the
second, no part of any command holds one of the marks or is blank, and the whole runs tests just if
one of the two commands does. So a command all of whose parts install packages or leave out tests
changes nothing of this, on either side: it neither counts as a test nor hides one.
-/
theorem tests_found_part_by_part (hmark : mark ∈ commandMarks) (a b : Text)
    (i j k : Instruction) :
    let left := i.shellRun a
    let right := j.shellRun b
    let whole := k.shellRun (Text.concat [a, " ", mark, " ", b])
    whole.segments = left.segments ++ right.segments ∧
    (∀ command : Text, ∀ part ∈ (k.shellRun command).segments,
      (∀ mark ∈ commandMarks, ¬mark <:+: part) ∧ Text.isBlankText part = false) ∧
    (whole.runsTests = true ↔ left.runsTests = true ∨ right.runsTests = true) ∧
    ((∀ part ∈ left.segments, InstallsOrSkips part) → whole.runsTests = right.runsTests) ∧
    ((∀ part ∈ right.segments, InstallsOrSkips part) → whole.runsTests = left.runsTests) := by
  intro left right whole
  have hsegments : whole.segments = left.segments ++ right.segments := segmentsOf_chained hmark a b
  have hruns : whole.runsTests = (left.runsTests || right.runsTests) := by
    rw [runsTests_shellRun, runsTests_shellRun, runsTests_shellRun, ← List.any_append,
      segmentsOf_chained hmark]
  refine ⟨hsegments, fun _ _ hpart => of_mem_segmentsOf hpart, ?_, fun h => ?_, fun h => ?_⟩
  · rw [hruns, Bool.or_eq_true]
  · rw [hruns, runsTests_eq_false h, Bool.false_or]
  · rw [hruns, runsTests_eq_false h, Bool.or_false]

/-- A test runner is installed, with a single bar left over in front of the mark, and then run. -/
theorem tests_found_part_by_part_of_installed_runner :
    ∃ (d : Dockerfile) (base left right whole : Instruction) (mark : Text),
      Dockerfile.parse
        "FROM a\nRUN pip install tox |||\nRUN tox -x\nRUN pip install tox ||| && tox -x\n" =
          .ok d ∧
      d.instructions = [base, left, right, whole] ∧ mark ∈ commandMarks ∧
      whole.raw = Text.concat [left.raw, " ", mark, " ", right.raw] ∧
      whole.segments = left.segments ++ right.segments ∧
      left.segments = (["pip install tox", "|"] : List Text) ∧
      (∀ part ∈ whole.segments,
        (∀ mark ∈ commandMarks, ¬mark <:+: part) ∧ Text.isBlankText part = false) ∧
      right.runsTests = true ∧ whole.runsTests = true := by
  let step (opcode : Opcode) (line : Nat) (arguments : List Text) : Instruction :=
    { opcode, arguments, line, endLine := line, raw := Text.joinWith " " arguments }
  let base := step .base 1 ["a"]
  let left := step .run 2 ["pip", "install", "tox", "|||"]
  let right := step .run 3 ["tox", "-x"]
  let whole := step .run 4 ["pip", "install", "tox", "|||", "&&", "tox", "-x"]
  have hmark : ("&&" : Text) ∈ commandMarks := by decide
  have hraw : whole.raw = Text.concat [left.raw, " ", "&&", " ", right.raw] := by decide
  have htests : right.runsTests = true := by decide +kernel
  have hparts := tests_found_part_by_part hmark left.raw right.raw left right whole
  rw [← hraw] at hparts
  exact ⟨{ instructions := [base, left, right, whole], warnings := [], escape := .backslash }, base,
    left, right, whole, "&&", by decide +kernel, rfl, hmark, hraw, hparts.1, by decide +kernel,
    fun part hpart => hparts.2.1 whole.raw part hpart, htests, hparts.2.2.1.mpr (Or.inr htests)⟩

/-! ## Installations -/

theorem installsPackages_shellRun (i : Instruction) (command : Text) :
    (i.shellRun command).installsPackages = Pattern.packageInstall.occursIn command := rfl

theorem installsDependencies_shellRun (i : Instruction) (command : Text) :
    (i.shellRun command).installsDependencies = Pattern.dependencyInstall.occursIn command := rfl

/-- What occurs in a command occurs where it is chained with others. -/
theorem occursIn_chained {q : Pattern} (hq : q.isMovable = true) {a : Text}
    (h : q.occursIn a = true) (x y : Text) :
    q.occursIn (Text.concat [x, " && ", a, " && ", y]) = true := by
  have hchained : Text.concat [x, " && ", a, " && ", y] =
      (x ++ " && ") ++ (a ++ (" && " ++ y)) := by
    simp [Text.concat]
  have hlast : (x ++ " && ".toList).getLast? = some ' ' := by
    rw [List.getLast?_append]
    rfl
  rw [hchained]
  refine Pattern.occursIn_between hq ?_ rfl h
  rw [hlast]
  decide

/-- A command that installs packages, or the dependencies of a project, does so as well between any
two commands that it is chained with by double ampersands. -/
theorem chained_installs_found (x a y : Text) (i j : Instruction) :
    let alone := i.shellRun a
    let chained := j.shellRun (Text.concat [x, " && ", a, " && ", y])
    (alone.installsPackages = true → chained.installsPackages = true) ∧
    (alone.installsDependencies = true → chained.installsDependencies = true) := by
  intro alone chained
  have hpackages : Pattern.packageInstall.isMovable = true := by decide
  have hdependencies : Pattern.dependencyInstall.isMovable = true := by decide
  rw [installsPackages_shellRun, installsPackages_shellRun, installsDependencies_shellRun,
    installsDependencies_shellRun]
  exact ⟨fun h => occursIn_chained hpackages h x y, fun h => occursIn_chained hdependencies h x y⟩

/-- An installation between two other commands, with letters next to the marks. -/
theorem chained_installs_found_of_requirements :
    ∃ (d : Dockerfile) (base alone chained : Instruction) (x y : Text),
      Dockerfile.parse
        "FROM a\nRUN PIP3 install -r b\nRUN cd pip && PIP3 install -r b && install\n" = .ok d ∧
      d.instructions = [base, alone, chained] ∧
      chained.raw = Text.concat [x, " && ", alone.raw, " && ", y] ∧
      alone.installsPackages = true ∧ chained.installsPackages = true ∧
      alone.installsDependencies = true ∧ chained.installsDependencies = true := by
  let step (opcode : Opcode) (line : Nat) (arguments : List Text) : Instruction :=
    { opcode, arguments, line, endLine := line, raw := Text.joinWith " " arguments }
  let base := step .base 1 ["a"]
  let alone := step .run 2 ["PIP3", "install", "-r", "b"]
  let chained := step .run 3
    ["cd", "pip", "&&", "PIP3", "install", "-r", "b", "&&", "install"]
  have hraw : chained.raw = Text.concat ["cd pip", " && ", alone.raw, " && ", "install"] := by
    decide
  have hpackages : alone.installsPackages = true := by decide +kernel
  have hdependencies : alone.installsDependencies = true := by decide +kernel
  have hfound := chained_installs_found "cd pip" alone.raw "install" alone chained
  rw [← hraw] at hfound
  exact ⟨{ instructions := [base, alone, chained], warnings := [], escape := .backslash }, base,
    alone, chained, "cd pip", "install", by decide +kernel, rfl, hraw, hpackages,
    hfound.1 hpackages, hdependencies, hfound.2 hdependencies⟩

end Instruction

end Drydock
