/-
  Variable references. A text is a row of segments, each one character or one reference; expansion
  replaces every reference once and looks into nothing that it inserts.
-/
import Drydock.Dockerfile.Heredoc
import Drydock.OrderedMap

namespace Drydock

/-- What a reference asks for beside the value: a word in its place if it is empty, or if not. -/
inductive Modifier where
  | orElse (word : Text)
  | andThen (word : Text)
deriving DecidableEq, Repr

/-- One part of a text that may refer to variables. -/
inductive Segment where
  | char (c : Char)
  | reference (name : Text) (modifier : Option Modifier)
deriving DecidableEq, Repr

namespace Segment

/-- The modifier that a sign stands for, but for its word. -/
def modifierFor? (sign : Char) : Option (Text → Modifier) :=
  if sign = '-' then some .orElse else if sign = '+' then some .andThen else none

/-- Reads a modifier with the closing brace behind it. -/
def readModifier? : Text → Option (Modifier × Text)
  | [] => none
  | sign :: t =>
    match modifierFor? sign, Text.cut '\x7d' t with
    | some modifier, (word, some rest) => some (modifier word, rest)
    | _, _ => none

/-- The text behind a colon at its front, if there is one. -/
def skipColon (t : Text) : Text := (Text.dropFront? [':'] t).getD t

/-- Reads what follows the name of a reference in braces. -/
def readBraced? (name : Text) (t : Text) : Option (Segment × Text) :=
  match t with
  | '\x7d' :: rest => some (.reference name none, rest)
  | _ => (readModifier? (skipColon t)).map fun (m, rest) => (.reference name (some m), rest)

/-- Reads a reference whose dollar sign has been read. -/
def readReference? (t : Text) : Option (Segment × Text) :=
  match t with
  | '\x7b' :: t =>
    match Text.takeName? t with
    | some (name, t) => readBraced? name t
    | none => none
  | _ =>
    match Text.takeName? t with
    | some (name, rest) => some (.reference name none, rest)
    | none => none

theorem length_readModifier? {t rest : Text} {m : Modifier} (h : readModifier? t = some (m, rest)) :
    rest.length ≤ t.length := by
  cases t with
  | nil => simp [readModifier?] at h
  | cons sign t =>
    rw [readModifier?] at h
    split at h
    · rename_i hc
      have := congrArg List.length (Text.cut_eq_append (congrArg Prod.snd hc))
      simp_all
      omega
    · simp at h

theorem length_skipColon (t : Text) : (skipColon t).length ≤ t.length := by
  cases t with
  | nil => simp [skipColon, Text.dropFront?]
  | cons c t =>
    by_cases h : c = ':'
    · simp [skipColon, Text.dropFront?, h]
    · simp [skipColon, Text.dropFront?, Ne.symm h]

theorem length_readBraced? {name t rest : Text} {s : Segment}
    (h : readBraced? name t = some (s, rest)) : rest.length ≤ t.length := by
  rw [readBraced?.eq_def] at h
  split at h
  · simp only [Option.some.injEq, Prod.mk.injEq] at h
    simp [← h.2]
  · simp only [Option.map_eq_some_iff, Prod.mk.injEq, Prod.exists] at h
    obtain ⟨m, r, hm, -, rfl⟩ := h
    exact Nat.le_trans (length_readModifier? hm) (length_skipColon t)

theorem length_takeName? {t name rest : Text} (h : Text.takeName? t = some (name, rest)) :
    rest.length ≤ t.length := by
  rw [Text.takeName?] at h
  split at h
  · simp only [Option.some.injEq, Prod.mk.injEq] at h
    rw [← h.2]
    exact (List.dropWhile_suffix _).length_le
  · simp at h

theorem length_readReference? {t rest : Text} {s : Segment}
    (h : readReference? t = some (s, rest)) : rest.length ≤ t.length := by
  rw [readReference?.eq_def] at h
  split at h
  · split at h
    · rename_i hn
      have := Nat.le_trans (length_readBraced? h) (length_takeName? hn)
      simp only [List.length_cons]
      omega
    · simp at h
  · split at h
    · rename_i hn
      simp only [Option.some.injEq, Prod.mk.injEq] at h
      exact h.2 ▸ length_takeName? hn
    · simp at h

/-- The segments of a text; a dollar sign that begins no reference is a character. -/
def ofText : Text → List Segment
  | [] => []
  | c :: t =>
    if c = '$' then
      match _found : readReference? t with
      | some (segment, rest) => segment :: ofText rest
      | none => .char c :: ofText t
    else .char c :: ofText t
termination_by t => t.length
decreasing_by
  all_goals simp only [List.length_cons]
  · have := length_readReference? _found
    omega
  all_goals omega

/-! ## Expansion -/

/-- What stands in a segment's place when variables have values. -/
def expand (values : OrderedMap Text Text) : Segment → Text
  | char c => [c]
  | reference name none => (values.get? name).getD []
  | reference name (some (.orElse word)) =>
    let value := (values.get? name).getD []
    if value.isEmpty then word else value
  | reference name (some (.andThen word)) =>
    if ((values.get? name).getD []).isEmpty then [] else word

/-- Whether the values leave nothing open: a reference without modifier needs a value. -/
def isResolved (values : OrderedMap Text Text) : Segment → Bool
  | reference name none => values.contains name
  | _ => true

/-- Whether a segment is a reference. -/
def isReference : Segment → Bool
  | reference .. => true
  | char _ => false

end Segment

/-- An expanded text, and whether every variable had a value. -/
structure Expansion where
  text : Text
  resolved : Bool
deriving DecidableEq, Repr

/-- Replaces the references in a text by the values of variables. -/
def Text.expand (t : Text) (values : OrderedMap Text Text) : Expansion :=
  let segments := Segment.ofText t
  ⟨segments.flatMap (Segment.expand values), segments.all (Segment.isResolved values)⟩

end Drydock
