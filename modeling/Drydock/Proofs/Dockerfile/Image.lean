/-
  Images as they are written. The signs between the parts of a reference stand inside of parts too:
  a colon before the port of a registry and in a digest, a slash in names and digests. Still each
  part is told from the next one (`cut_text`, `splitTag_named`), so that a base image is read as it
  is written (`checkedOfInstruction_written`).
-/
import Drydock.Proofs.Dockerfile.Access
import Drydock.Proofs.Dockerfile.Substitution
import Mathlib.Data.List.DropRight

namespace Drydock

/-! ## The last separator -/

namespace Text

theorem cutLast?_of_not_mem {separator : Char} {t : Text} (h : separator ∉ t) :
    cutLast? separator t = none := by
  induction t with
  | nil => rfl
  | cons c t ih =>
    rw [List.mem_cons, not_or] at h
    simp [cutLast?, ih h.2, Ne.symm h.1]

theorem cutLast?_append_of_not_mem {separator : Char} {behind : Text} (h : separator ∉ behind)
    (before : Text) : cutLast? separator (before ++ separator :: behind) = some (before, behind) := by
  induction before with
  | nil => simp [cutLast?, cutLast?_of_not_mem h]
  | cons c before ih => simp [cutLast?, ih]

theorem cutLast?_eq_append {separator : Char} {t before behind : Text}
    (h : cutLast? separator t = some (before, behind)) : t = before ++ separator :: behind := by
  induction t generalizing before with
  | nil => exact absurd h (by simp [cutLast?])
  | cons c t ih =>
    rw [cutLast?] at h
    split at h
    · rename_i front rest hcut
      obtain ⟨rfl, rfl⟩ := Prod.mk.inj (Option.some.inj h)
      rw [ih hcut, List.cons_append]
    · split at h
      · rename_i hc
        obtain ⟨rfl, rfl⟩ := Prod.mk.inj (Option.some.inj h)
        rw [hc, List.nil_append]
      · exact absurd h (by simp)

/-- What stands behind the last separator of a text, which is all of it if there is none. -/
def lastPiece (separator : Char) (t : Text) : Text := t.rtakeWhile fun c => c ≠ separator

theorem subset_lastPiece {separator : Char} {behind : Text} (h : separator ∉ behind)
    (before : Text) : behind ⊆ lastPiece separator (before ++ behind) := by
  have hall : ∀ c ∈ behind.reverse, (c ≠ separator : Bool) = true := by
    intro c hc
    refine decide_eq_true ?_
    rintro rfl
    exact h (List.mem_reverse.mp hc)
  intro c hc
  rw [lastPiece, List.rtakeWhile, List.reverse_append, List.takeWhile_append_of_pos hall,
    List.mem_reverse]
  exact List.mem_append_left _ (List.mem_reverse.mpr hc)

/-- Nothing is replaced where nothing is referred to. -/
theorem expand_of_not_mem {t : Text} (h : '$' ∉ t) (values : OrderedMap Text Text) :
    t.expand values = ⟨t, true⟩ := by
  have hread := Segment.ofText_literal h []
  rw [List.append_nil, Segment.ofText, List.append_nil] at hread
  rw [expand, hread, List.flatMap_map, List.all_map]
  exact congrArg₂ Expansion.mk (List.flatMap_singleton' t) (List.all_eq_true.mpr fun _ _ => rfl)

end Text

/-! ## References as they are written -/

namespace ImageReference

/-- How a step says what a stage is built on: flags, a name, perhaps a tag and a digest, and perhaps
a name for the stage, behind a word that leads it in. -/
structure Written where
  flags : List Text
  name : Text
  tag : Option Text
  digest : Option Text
  naming : Option (Text × Text)
deriving DecidableEq, Repr

namespace Written

/-- The name with the tag. -/
def named (w : Written) : Text := w.name ++ w.tag.elim [] (':' :: ·)

/-- The image as one argument. -/
def text (w : Written) : Text := w.named ++ w.digest.elim [] ('@' :: ·)

/-- All arguments. -/
def arguments (w : Written) : List Text :=
  w.flags ++ w.text :: w.naming.elim [] fun (word, stageName) => [word, stageName]

/-- The words that lead in the name of a stage: one word in small and capital letters. -/
def leads : List Text := ["AS", "As", "aS", "as"]

/-- Parts that can be told apart. A name is no flag, has no at sign, and has no colon behind its last
slash; a tag has no slash, colon or at sign. No tag or digest is empty, and nothing refers to a
variable. -/
structure IsSound (w : Written) : Prop where
  flags : ∀ flag ∈ w.flags, Instruction.isFlag flag = true
  name_not_flag : Instruction.isFlag w.name = false
  at_not_mem_name : '@' ∉ w.name
  colon_not_mem_name : ':' ∉ Text.lastPiece '/' w.name
  tag : ∀ tag ∈ w.tag, tag ≠ [] ∧ '/' ∉ tag ∧ ':' ∉ tag ∧ '@' ∉ tag
  digest : ∀ digest ∈ w.digest, digest ≠ []
  naming : ∀ naming ∈ w.naming, naming.1 ∈ leads
  dollar_not_mem : '$' ∉ w.text

/-- Parts that can be told apart, though tag and digest may be empty, a name may have any colons if a
tag follows, and any word may lead in the name of the stage. -/
structure IsLegible (w : Written) : Prop where
  flags : ∀ flag ∈ w.flags, Instruction.isFlag flag = true
  name_not_flag : Instruction.isFlag w.name = false
  at_not_mem_name : '@' ∉ w.name
  colon_not_mem_name : w.tag = none → ':' ∉ Text.lastPiece '/' w.name
  tag : ∀ tag ∈ w.tag, '/' ∉ tag ∧ ':' ∉ tag ∧ '@' ∉ tag
  dollar_not_mem : '$' ∉ w.text

theorem IsSound.isLegible {w : Written} (h : w.IsSound) : w.IsLegible :=
  { h with
    colon_not_mem_name := fun _ => h.colon_not_mem_name
    tag := fun tag htag => (h.tag tag htag).2 }

instance {w : Written} : Coe w.IsSound w.IsLegible := ⟨IsSound.isLegible⟩

/-- The name of the stage in small letters, if it is led in. -/
def stageName (w : Written) : Option Text :=
  w.naming.bind fun (word, stageName) =>
    if Text.lower word = "as" then some (Text.lower stageName) else none

/-- What is read of an image that is written so, on some line. -/
def image (w : Written) (line : Nat) : ImageReference where
  text := w.text
  name := Text.lower w.name
  tag := w.tag.bind nonempty?
  digest := w.digest.bind nonempty?
  stageName := w.stageName
  resolved := true
  line := line

/-- A step opens a stage on some line as it is written; an array of strings has no flags. -/
structure IsStep (w : Written) (line : Nat) (i : Instruction) : Prop where
  opcode : i.opcode = .base
  arguments : i.arguments = w.arguments
  line : i.line = line
  flags : i.execForm = true → w.flags = []

end Written

/-! ## Reading what is written -/

theorem splitTag_of_not_mem {name : Text} (h : ':' ∉ Text.lastPiece '/' name) :
    splitTag name = (name, none) := by
  unfold splitTag
  split
  · rename_i before behind hcut
    -- The colon belongs to a port, since a slash stands somewhere behind it.
    have hslash : '/' ∈ behind := by
      by_contra hnone
      rw [Text.cutLast?_eq_append hcut] at h
      exact h (Text.subset_lastPiece (by simpa using hnone) before List.mem_cons_self)
    exact if_pos (List.contains_iff_mem.mpr hslash)
  · rfl

theorem splitTag_append {tag : Text} (hslash : '/' ∉ tag) (hcolon : ':' ∉ tag) (name : Text) :
    splitTag (name ++ ':' :: tag) = (name, some tag) := by
  rw [splitTag, Text.cutLast?_append_of_not_mem hcolon]
  exact if_neg (by simpa using hslash)

theorem bind_nonempty? {part : Option Text} (h : ∀ t ∈ part, t ≠ []) :
    part.bind nonempty? = part := by
  cases part with
  | none => rfl
  | some t => exact if_neg (by simpa using h t rfl)

namespace Written

variable {w : Written}

theorem splitTag_named (h : w.IsLegible) : splitTag w.named = (w.name, w.tag) := by
  unfold named
  cases htag : w.tag with
  | none =>
    rw [Option.elim_none, List.append_nil]
    exact splitTag_of_not_mem (h.colon_not_mem_name htag)
  | some tag =>
    obtain ⟨hslash, hcolon, -⟩ := h.tag tag htag
    exact splitTag_append hslash hcolon w.name

theorem cut_text (h : w.IsLegible) : Text.cut '@' w.text = (w.named, w.digest) := by
  have hat : '@' ∉ w.named := by
    unfold named
    cases htag : w.tag with
    | none => simpa using h.at_not_mem_name
    | some tag =>
      obtain ⟨-, -, hat⟩ := h.tag tag htag
      simpa using ⟨h.at_not_mem_name, hat⟩
  unfold text
  cases w.digest with
  | none =>
    rw [Option.elim_none, List.append_nil]
    exact Text.cut_of_not_mem hat
  | some digest => exact Text.cut_append_of_not_mem hat digest

/-- What follows a text without a hyphen in front makes no flag of it. -/
theorem isFlag_append {name rest : Text} (h : Instruction.isFlag name = false)
    (hrest : rest.head? ≠ some '-') : Instruction.isFlag (name ++ rest) = false := by
  rw [← Bool.not_eq_true] at h ⊢
  refine mt (fun hflag => ?_) h
  have hfront : ['-', '-'] <+: name ++ rest := List.isPrefixOf_iff_prefix.mp hflag
  refine List.isPrefixOf_iff_prefix.mpr ?_
  match name with
  | [] =>
    obtain ⟨behind, hbehind⟩ := hfront
    exact absurd (congrArg List.head? hbehind.symm) hrest
  | [c] =>
    obtain ⟨rfl, behind, hbehind⟩ := List.cons_prefix_cons.mp hfront
    exact absurd (congrArg List.head? hbehind.symm) hrest
  | c :: d :: name =>
    obtain ⟨rfl, hsecond⟩ := List.cons_prefix_cons.mp hfront
    obtain ⟨rfl, -⟩ := List.cons_prefix_cons.mp hsecond
    exact ⟨name, rfl⟩

/-- The signs that follow a name do not make a flag of it. -/
theorem isFlag_text (h : w.IsLegible) : Instruction.isFlag w.text = false := by
  have hnamed : Instruction.isFlag w.named = false := by
    refine isFlag_append h.name_not_flag ?_
    cases w.tag <;> simp
  refine isFlag_append hnamed ?_
  cases w.digest <;> simp

theorem stageNameOf_arguments (h : w.IsSound) (target : Text) :
    stageNameOf (target :: w.naming.elim [] fun (word, stageName) => [word, stageName]) =
      w.naming.map fun naming => Text.lower naming.2 := by
  have hleads : ∀ word ∈ leads, Text.lower word = "as" := by decide
  cases hnaming : w.naming with
  | none => rfl
  | some naming => exact if_pos (hleads _ (h.naming naming hnaming))

/-- Behind the flags, the image comes first. -/
theorem positional_of_arguments (h : w.IsLegible) {i : Instruction} (hi : i.arguments = w.arguments)
    (hform : i.execForm = true → w.flags = []) :
    i.positional = w.text :: w.naming.elim [] fun (word, stageName) => [word, stageName] := by
  unfold Instruction.positional
  rw [hi, arguments]
  split
  · rename_i hexec
    rw [hform hexec, List.nil_append]
  · rw [List.dropWhile_append_of_pos h.flags,
      List.dropWhile_cons_of_neg (by simp [isFlag_text h])]

/-- The image of a step is read as it is written, whatever the values of variables. -/
theorem ofInstruction_of_isStep (h : w.IsLegible) {line : Nat} {i : Instruction}
    (hi : w.IsStep line i) (values : OrderedMap Text Text) :
    ofInstruction i values = w.image line := by
  have hnaming (target : Text) :
      stageNameOf (target :: w.naming.elim [] fun (word, stageName) => [word, stageName]) =
        w.stageName := by
    unfold stageName
    cases w.naming <;> rfl
  rw [ofInstruction, positional_of_arguments h hi.arguments hi.flags, hnaming, List.head?_cons,
    Option.getD_some, ofTarget, Text.expand_of_not_mem h.dollar_not_mem, hi.line]
  dsimp only
  rw [cut_text h]
  dsimp only
  rw [splitTag_named h]
  rfl

end Written

/--
A base image is read as it is written: its name in small letters, its tag and its digest as far as
they are given, and the name of the stage in small letters, whatever flags stand in front. As nothing
refers to a variable, this is the same with all values of variables, and the image is resolved. An
array of strings has no flags.
-/
theorem checkedOfInstruction_written (values : OrderedMap Text Text) {i : Instruction} {w : Written}
    (h : w.IsSound) (hi : i.arguments = w.arguments) (hform : i.execForm = true → w.flags = []) :
    checkedOfInstruction i values = .ok
      { text := w.text
        name := Text.lower w.name
        tag := w.tag
        digest := w.digest
        stageName := w.naming.map fun naming => Text.lower naming.2
        resolved := true
        line := i.line } := by
  have htag : w.tag.bind nonempty? = w.tag := bind_nonempty? fun tag htag => (h.tag tag htag).1
  have hdigest : w.digest.bind nonempty? = w.digest := bind_nonempty? h.digest
  rw [checkedOfInstruction_eq, ofInstruction, Written.positional_of_arguments h hi hform,
    Written.stageNameOf_arguments h, List.head?_cons, Option.getD_some, ofTarget,
    Text.expand_of_not_mem h.dollar_not_mem]
  dsimp only
  rw [Written.cut_text h]
  dsimp only
  rw [Written.splitTag_named h]
  dsimp only
  rw [htag, hdigest]

/-- There is a colon in the name, one before the tag, and one in the digest, and a slash in name and
digest. -/
theorem checkedOfInstruction_written_of_registry_port :
    ∃ (i : Instruction) (w : Written), w.IsSound ∧ i.arguments = w.arguments ∧
      (i.execForm = true → w.flags = []) ∧
      i.arguments = ["--platform=x", "Host:5000/B:1.0@md:f/0", "aS", "Build"] ∧
      checkedOfInstruction i .empty = .ok
        { text := "Host:5000/B:1.0@md:f/0"
          name := "host:5000/b"
          tag := some "1.0"
          digest := some "md:f/0"
          stageName := some "build"
          resolved := true
          line := 1 } := by
  let w : Written :=
    { flags := ["--platform=x"]
      name := "Host:5000/B"
      tag := some "1.0"
      digest := some "md:f/0"
      naming := some ("aS", "Build") }
  let i : Instruction := { opcode := .base, arguments := w.arguments, line := 1, endLine := 1 }
  have hsound : w.IsSound := by constructor <;> decide
  have hread := checkedOfInstruction_written .empty hsound (i := i) rfl (by decide)
  exact ⟨i, w, hsound, rfl, by decide, by decide, hread.trans (by decide)⟩

end ImageReference

end Drydock
