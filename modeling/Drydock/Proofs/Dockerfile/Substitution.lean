/-
  What expansion puts in the place of references. A text that is spelled as literals and references,
  none of which runs on into what follows it, falls apart into just these (`ofText_spelled`). So each
  reference is replaced once, by what its form asks for, and everything else stays as it is spelled
  (`expand_spelled`).
-/
import Drydock.Proofs.Dockerfile.Expansion

namespace Drydock

/-! ## Names -/

namespace Text

/-- The name of a variable: an ASCII letter or a low line, and behind it digits as well. -/
def IsName (name : Text) : Prop :=
  name.head?.any isNameStart = true ∧ name.all isNameChar = true

instance : DecidablePred IsName := fun _ => inferInstanceAs (Decidable (_ ∧ _))

/-- A text does not go on with a character that names may have. -/
def EndsName (rest : Text) : Prop := rest.head?.any isNameChar = false

instance : DecidablePred EndsName := fun _ => inferInstanceAs (Decidable (_ = _))

/-- A name is taken as far as it goes. -/
theorem takeName?_append_of_endsName {name rest : Text} (hname : IsName name)
    (hrest : EndsName rest) : takeName? (name ++ rest) = some (name, rest) := by
  obtain ⟨hstart, hall⟩ := hname
  have hchars := List.all_eq_true.mp hall
  have hhead : (name ++ rest).head?.any isNameStart = true := by
    cases name with
    | nil => exact absurd hstart (by simp)
    | cons c name => exact hstart
  have hstop : rest.takeWhile isNameChar = [] ∧ rest.dropWhile isNameChar = rest := by
    cases rest with
    | nil => exact ⟨rfl, rfl⟩
    | cons c rest =>
      have hc : isNameChar c = false := hrest
      exact ⟨List.takeWhile_cons_of_neg (by simp [hc]), List.dropWhile_cons_of_neg (by simp [hc])⟩
  rw [takeName?, if_pos hhead, List.takeWhile_append_of_pos hchars, hstop.1, List.append_nil,
    List.dropWhile_append_of_pos hchars, hstop.2]

theorem exists_cons_of_isName {name : Text} (h : IsName name) :
    ∃ c rest, name = c :: rest ∧ c ≠ '\x7b' := by
  cases name with
  | nil => exact absurd h.1 (by simp)
  | cons c rest =>
    have hstart : isNameStart c = true := h.1
    refine ⟨c, rest, rfl, ?_⟩
    rintro rfl
    exact absurd hstart (by decide)

end Text

/-! ## Spellings -/

namespace Modifier

/-- The sign that tells what a modifier does. -/
def sign : Modifier → Char
  | orElse _ => '-'
  | andThen _ => '+'

/-- What stands between a name and the word of a modifier: its sign, perhaps behind a colon. -/
def lead (hasColon : Bool) (m : Modifier) : Text := if hasColon then [':', m.sign] else [m.sign]

end Modifier

/-- One part of a text as it is spelled: text that refers to nothing, or a reference, with or
without braces, and in braces perhaps with a modifier, before which a colon may stand. -/
inductive Spelling where
  | literal (t : Text)
  | bare (name : Text)
  | braced (name : Text)
  | modified (name : Text) (hasColon : Bool) (modifier : Modifier)
deriving DecidableEq, Repr

namespace Spelling

/-- A part as it stands in a text. -/
def text : Spelling → Text
  | literal t => t
  | bare name => '$' :: name
  | braced name => '$' :: '\x7b' :: (name ++ ['\x7d'])
  | modified name hasColon modifier =>
    '$' :: '\x7b' :: (name ++ (modifier.lead hasColon ++ (modifier.word ++ ['\x7d'])))

/-- A part that can be told from what surrounds it: a literal has no dollar sign, a reference has a
name, and a word does not close the brace. -/
def IsSound : Spelling → Prop
  | literal t => '$' ∉ t
  | bare name => Text.IsName name
  | braced name => Text.IsName name
  | modified name _ modifier => Text.IsName name ∧ '\x7d' ∉ modifier.word

instance : DecidablePred IsSound
  | literal _ => inferInstanceAs (Decidable (¬_))
  | bare _ => inferInstanceAs (Decidable (Text.IsName _))
  | braced _ => inferInstanceAs (Decidable (Text.IsName _))
  | modified _ _ _ => inferInstanceAs (Decidable (_ ∧ _))

/-- Whether a name stands at the end of a part. -/
def isBare : Spelling → Bool
  | bare _ => true
  | _ => false

/-- Parts that stand one behind the other so that each can be told: what follows a name without
braces, if anything does, does not begin with a letter, a digit or a low line. -/
def AreSound : List Spelling → Prop
  | [] => True
  | part :: rest =>
    -- It is the text of all that follows that counts, since a literal may be empty.
    part.IsSound ∧ (part.isBare = true → Text.EndsName (rest.flatMap text)) ∧ AreSound rest

instance decidableAreSound : DecidablePred AreSound
  | [] => inferInstanceAs (Decidable True)
  | _ :: rest =>
    have := decidableAreSound rest
    inferInstanceAs (Decidable (_ ∧ _ ∧ _))

/-- The segments that a part is read as. -/
def segments : Spelling → List Segment
  | literal t => t.map .char
  | bare name => [.reference name none]
  | braced name => [.reference name none]
  | modified name _ modifier => [.reference name (some modifier)]

/-- The value of a variable, if it has one that is not empty. -/
def filled? (values : OrderedMap Text Text) (name : Text) : Option Text :=
  (values.get? name).filter fun value => !value.isEmpty

/-- What stands in a part's place when variables have values. -/
def replaced (values : OrderedMap Text Text) : Spelling → Text
  | literal t => t
  | bare name => (values.get? name).getD []
  | braced name => (values.get? name).getD []
  | modified name _ (.orElse word) => (filled? values name).getD word
  | modified name _ (.andThen word) => if (filled? values name).isSome then word else []

/-- The variable without whose value a part is left open: that of a reference without modifier. -/
def demand? : Spelling → Option Text
  | bare name => some name
  | braced name => some name
  | _ => none

end Spelling

/-! ## Reading what is spelled -/

namespace Segment

theorem ofText_literal {t : Text} (h : '$' ∉ t) (rest : Text) :
    ofText (t ++ rest) = t.map .char ++ ofText rest := by
  induction t with
  | nil => rfl
  | cons c t ih =>
    rw [List.mem_cons, not_or] at h
    rw [List.cons_append, ofText, if_neg (Ne.symm h.1), ih h.2]
    rfl

theorem ofText_reference {t rest : Text} {s : Segment} (h : readReference? t = some (s, rest)) :
    ofText ('$' :: t) = s :: ofText rest := by
  rw [ofText, if_pos rfl]
  split
  · rename_i found behind hfound
    obtain ⟨rfl, rfl⟩ := Prod.mk.inj (Option.some.inj (hfound.symm.trans h))
    rfl
  · rename_i hnone
    exact absurd (hnone.symm.trans h) (by simp)

theorem readReference?_bare {name rest : Text} (hname : Text.IsName name)
    (hrest : Text.EndsName rest) :
    readReference? (name ++ rest) = some (.reference name none, rest) := by
  obtain ⟨c, name, rfl, hc⟩ := Text.exists_cons_of_isName hname
  rw [List.cons_append, readReference?_of_ne hc, ← List.cons_append,
    Text.takeName?_append_of_endsName hname hrest]
  rfl

theorem readReference?_braced {name : Text} (hname : Text.IsName name) (rest : Text) :
    readReference? ('\x7b' :: (name ++ '\x7d' :: rest)) = some (.reference name none, rest) := by
  have hstop : Text.EndsName ('\x7d' :: rest) := rfl
  rw [readReference?_brace, Text.takeName?_append_of_endsName hname hstop]
  rfl

theorem readModifier?_sign {modifier : Modifier} (hword : '\x7d' ∉ modifier.word) (rest : Text) :
    readModifier? (modifier.sign :: (modifier.word ++ '\x7d' :: rest)) =
      some (modifier, rest) := by
  rw [readModifier?, Text.cut_append_of_not_mem hword]
  cases modifier <;> rfl

/-- What leads a modifier in goes on with no name and closes no brace; a colon in it is skipped. -/
theorem exists_lead_eq (hasColon : Bool) (modifier : Modifier) (rest : Text) :
    ∃ c behind, modifier.lead hasColon ++ rest = c :: behind ∧ Text.isNameChar c = false ∧
      c ≠ '\x7d' ∧ skipColon (c :: behind) = modifier.sign :: rest := by
  cases hasColon with
  | true => exact ⟨':', modifier.sign :: rest, rfl, by decide, by decide, rfl⟩
  | false =>
    cases modifier with
    | orElse word => exact ⟨'-', rest, rfl, by decide, by decide, rfl⟩
    | andThen word => exact ⟨'+', rest, rfl, by decide, by decide, rfl⟩

theorem readReference?_modified {name : Text} (hname : Text.IsName name) {modifier : Modifier}
    (hword : '\x7d' ∉ modifier.word) (hasColon : Bool) (rest : Text) :
    readReference? ('\x7b' :: (name ++
        (modifier.lead hasColon ++ (modifier.word ++ '\x7d' :: rest)))) =
      some (.reference name (some modifier), rest) := by
  obtain ⟨c, behind, hlead, hc, hbrace, hskip⟩ :=
    exists_lead_eq hasColon modifier (modifier.word ++ '\x7d' :: rest)
  have hstop : Text.EndsName (c :: behind) := hc
  rw [hlead, readReference?_brace, Text.takeName?_append_of_endsName hname hstop]
  show readBraced? name (c :: behind) = _
  rw [readBraced?_of_ne hbrace, hskip, readModifier?_sign hword]
  rfl

end Segment

namespace Spelling

variable {part : Spelling} {parts : List Spelling}

/-- A part is read as its segments, whatever follows that a name does not run on into. -/
theorem ofText_text_append (h : part.IsSound) {rest : Text}
    (hrest : part.isBare = true → Text.EndsName rest) :
    Segment.ofText (part.text ++ rest) = part.segments ++ Segment.ofText rest := by
  cases part with
  | literal t => exact Segment.ofText_literal h rest
  | bare name => exact Segment.ofText_reference (Segment.readReference?_bare h (hrest rfl))
  | braced name =>
    have hread := Segment.ofText_reference (Segment.readReference?_braced h rest)
    simpa [text, segments] using hread
  | modified name hasColon modifier =>
    have hread := Segment.ofText_reference
      (Segment.readReference?_modified h.1 h.2 hasColon rest)
    simpa [text, segments] using hread

/-- A text is read as it is spelled. -/
theorem ofText_spelled (h : AreSound parts) :
    Segment.ofText (parts.flatMap text) = parts.flatMap segments := by
  induction parts with
  | nil => rw [List.flatMap_nil, Segment.ofText, List.flatMap_nil]
  | cons part rest ih =>
    obtain ⟨hpart, hname, hrest⟩ := h
    rw [List.flatMap_cons, List.flatMap_cons, ofText_text_append hpart hname, ih hrest]

/-- An empty value counts as none. -/
theorem filled?_eq (values : OrderedMap Text Text) (name : Text) :
    filled? values name = if ((values.get? name).getD []).isEmpty then none
      else some ((values.get? name).getD []) := by
  unfold filled?
  cases values.get? name with
  | none => rfl
  | some value => cases value <;> rfl

/-- What stands in a part's place is what stands in the place of its segments. -/
theorem flatMap_expand_segments (values : OrderedMap Text Text) (part : Spelling) :
    part.segments.flatMap (Segment.expand values) = part.replaced values := by
  cases part with
  | literal t =>
    rw [segments, List.flatMap_map]
    exact List.flatMap_singleton' t
  | bare name | braced name => exact List.flatMap_singleton ..
  | modified name hasColon modifier =>
    refine (List.flatMap_singleton ..).trans ?_
    cases modifier with
    | orElse word =>
      rw [replaced, filled?_eq, Segment.expand]
      cases ((values.get? name).getD []).isEmpty <;> rfl
    | andThen word =>
      rw [replaced, filled?_eq, Segment.expand]
      cases ((values.get? name).getD []).isEmpty <;> rfl

theorem all_isResolved_segments (values : OrderedMap Text Text) (part : Spelling) :
    part.segments.all (Segment.isResolved values) = part.demand?.all values.contains := by
  cases part with
  | literal t => simp [segments, Segment.isResolved, demand?]
  | bare name | braced name => simp [segments, Segment.isResolved, demand?]
  | modified name hasColon modifier => rfl

/--
Each part of a text is replaced by what it asks for, in order: text stays as it is, a reference
becomes the value of its variable or nothing, and one with a modifier becomes the value or the word,
which stays as it is spelled. The values leave something open just if a reference without modifier
is to a variable that has none.
-/
theorem expand_spelled (values : OrderedMap Text Text) (h : AreSound parts) :
    (Text.expand (parts.flatMap text) values).text = parts.flatMap (replaced values) ∧
    ((Text.expand (parts.flatMap text) values).resolved = false ↔
      ∃ part ∈ parts, ∃ name, part.demand? = some name ∧ name ∉ values.keys) := by
  rw [Text.expand, ofText_spelled h]
  constructor
  · dsimp only
    rw [List.flatMap_assoc, funext (flatMap_expand_segments values)]
  · dsimp only
    rw [List.all_flatMap, List.all_eq_false]
    refine exists_congr fun part => and_congr_right fun _ => ?_
    rw [all_isResolved_segments]
    cases part.demand? with
    | none => simp
    | some name => simp [OrderedMap.contains_iff]

/-- Dollar signs in a value and in a word are left as they are; the last variable has no value. -/
theorem expand_spelled_of_inserted_dollar :
    ∃ (values : OrderedMap Text Text) (parts : List Spelling),
      AreSound parts ∧ parts.flatMap text = "a$A-$\x7bB:-$C\x7d$\x7bC\x7d" ∧
      values.get? "A" = some "$D" ∧ values.get? "B" = some "" ∧ values.get? "C" = none ∧
      Text.expand "a$A-$\x7bB:-$C\x7d$\x7bC\x7d" values = ⟨"a$D-$C", false⟩ := by
  let values : OrderedMap Text Text := .ofList [("A", "$D"), ("B", "")]
  let parts : List Spelling :=
    [.literal "a", .bare "A", .literal "-", .modified "B" true (.orElse "$C"), .braced "C"]
  have hsound : AreSound parts := by decide
  have hspelled : parts.flatMap text = "a$A-$\x7bB:-$C\x7d$\x7bC\x7d" := by decide
  have hreplaced : parts.flatMap (replaced values) = "a$D-$C" := by decide
  obtain ⟨htext, hopen⟩ := expand_spelled values hsound
  rw [hspelled, hreplaced] at htext
  rw [hspelled] at hopen
  have hresolved := hopen.mpr ⟨.braced "C", by decide, "C", rfl, by decide⟩
  exact ⟨values, parts, hsound, hspelled, rfl, rfl, rfl, by rw [← htext, ← hresolved]⟩

end Spelling

end Drydock
