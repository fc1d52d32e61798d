/-
  What expansion leaves of references. A text contains a reference just if one of its segments is
  one (`hasReference_iff`), and whatever stands around a reference, it remains one
  (`HasReference.append`). Nothing that is inserted is looked into, so a reference that begins there
  is left after expansion (`hasReference_flatMap_iff`). The dollar signs of the result are those of
  the text beside its references, of their words, and of the values (`mayKeepDollar_of_mem_expand`),
  and each value has its characters from the step that declares it (`exists_declaration`).
-/
import Drydock.Dockerfile.Stage
import Drydock.Proofs.OrderedMap

namespace Drydock

/-! ## References -/

namespace Text

theorem cut_append {separator : Char} {t rest : Text} (h : (cut separator t).2 = some rest)
    (u : Text) : cut separator (t ++ u) = ((cut separator t).1, some (rest ++ u)) := by
  induction t with
  | nil => exact absurd h (by simp [cut])
  | cons c t ih =>
    by_cases hc : c = separator
    · simp only [cut, hc, if_true] at h
      simp [cut, hc, ← Option.some.inj h]
    · simp only [cut, hc, if_false] at h
      simp [cut, hc, ih h]

theorem isSome_takeName?_append {t : Text} (h : (takeName? t).isSome) (u : Text) :
    (takeName? (t ++ u)).isSome := by
  cases t with
  | nil => exact absurd h (by simp [takeName?])
  | cons c t =>
    by_cases hc : isNameStart c = true
    · simp [takeName?, hc]
    · exact absurd h (by simp [takeName?, hc])

theorem takeName?_append {t name rest : Text} {c : Char} (h : takeName? t = some (name, c :: rest))
    (u : Text) : takeName? (t ++ u) = some (name, c :: rest ++ u) := by
  have hsome := isSome_takeName?_append (Option.isSome_of_eq_some h) u
  unfold takeName? at h hsome ⊢
  split at h
  · obtain ⟨hname, hrest⟩ := Prod.mk.inj (Option.some.inj h)
    have hlength : (t.takeWhile isNameChar).length ≠ t.length := by
      have hsplit := congrArg List.length
        (List.takeWhile_append_dropWhile (p := isNameChar) (l := t))
      rw [hrest, List.length_append, List.length_cons] at hsplit
      omega
    split at hsome
    · rw [if_pos (by assumption), List.takeWhile_append, if_neg hlength, List.dropWhile_append,
        hrest, hname]
      rfl
    · exact absurd hsome (by simp)
  · exact absurd h (by simp)

/-- A text contains a reference if one can be read behind a dollar sign of it. -/
def HasReference (t : Text) : Prop :=
  ∃ before behind, t = before ++ '$' :: behind ∧ (Segment.readReference? behind).isSome

end Text

namespace Segment

theorem readReference?_brace (t : Text) :
    readReference? ('\x7b' :: t) = (Text.takeName? t).bind fun (name, rest) =>
      readBraced? name rest := by
  rw [readReference?]
  cases Text.takeName? t <;> rfl

theorem readReference?_of_ne {c : Char} (hc : c ≠ '\x7b') (t : Text) :
    readReference? (c :: t) =
      (Text.takeName? (c :: t)).map fun (name, rest) => (.reference name none, rest) := by
  rw [readReference?.eq_def]
  split
  · rename_i h
    exact absurd (List.cons.inj h).1 hc
  · cases Text.takeName? (c :: t) <;> rfl

theorem isReference_of_readBraced? {name t rest : Text} {s : Segment}
    (h : readBraced? name t = some (s, rest)) : s.isReference = true := by
  rw [readBraced?.eq_def] at h
  split at h
  · obtain ⟨rfl, -⟩ := Prod.mk.inj (Option.some.inj h)
    rfl
  · obtain ⟨found, -, hfound⟩ := Option.map_eq_some_iff.mp h
    obtain ⟨rfl, -⟩ := Prod.mk.inj hfound
    rfl

theorem isReference_of_readReference? {t rest : Text} {s : Segment}
    (h : readReference? t = some (s, rest)) : s.isReference = true := by
  cases t with
  | nil => exact absurd h (by simp [readReference?, Text.takeName?])
  | cons c t =>
    by_cases hc : c = '\x7b'
    · rw [hc, readReference?_brace] at h
      obtain ⟨_, -, h⟩ := Option.bind_eq_some_iff.mp h
      exact isReference_of_readBraced? h
    · rw [readReference?_of_ne hc] at h
      obtain ⟨found, -, hfound⟩ := Option.map_eq_some_iff.mp h
      obtain ⟨rfl, -⟩ := Prod.mk.inj hfound
      rfl

theorem readModifier?_append {t rest : Text} {m : Modifier} (h : readModifier? t = some (m, rest))
    (u : Text) : readModifier? (t ++ u) = some (m, rest ++ u) := by
  cases t with
  | nil => exact absurd h (by simp [readModifier?])
  | cons sign t =>
    rw [readModifier?] at h
    split at h
    · rename_i modifier word behind hsign hcut
      obtain ⟨rfl, rfl⟩ := Prod.mk.inj (Option.some.inj h)
      rw [List.cons_append, readModifier?, hsign, Text.cut_append (congrArg Prod.snd hcut), hcut]
    · exact absurd h (by simp)

theorem skipColon_append {t : Text} (h : t ≠ []) (u : Text) :
    skipColon (t ++ u) = skipColon t ++ u := by
  obtain ⟨c, t, rfl⟩ := List.exists_cons_of_ne_nil h
  by_cases hc : c = ':'
  · simp [skipColon, Text.dropFront?, hc]
  · simp [skipColon, Text.dropFront?, Ne.symm hc]

theorem readBraced?_of_ne {c : Char} (hc : c ≠ '\x7d') (name t : Text) :
    readBraced? name (c :: t) =
      (readModifier? (skipColon (c :: t))).map fun (m, rest) =>
        (.reference name (some m), rest) := by
  rw [readBraced?.eq_def]
  split
  · rename_i h
    exact absurd (List.cons.inj h).1 hc
  · rfl

theorem ne_nil_of_readBraced? {name t rest : Text} {s : Segment}
    (h : readBraced? name t = some (s, rest)) : t ≠ [] := by
  rintro rfl
  exact absurd h (by simp [readBraced?, skipColon, Text.dropFront?, readModifier?])

theorem readBraced?_append {name t rest : Text} {s : Segment}
    (h : readBraced? name t = some (s, rest)) (u : Text) :
    readBraced? name (t ++ u) = some (s, rest ++ u) := by
  obtain ⟨c, t, rfl⟩ := List.exists_cons_of_ne_nil (ne_nil_of_readBraced? h)
  by_cases hc : c = '\x7d'
  · subst hc
    obtain ⟨rfl, rfl⟩ := Prod.mk.inj (Option.some.inj h)
    rfl
  · rw [readBraced?_of_ne hc] at h
    obtain ⟨⟨m, behind⟩, hm, hfound⟩ := Option.map_eq_some_iff.mp h
    obtain ⟨rfl, rfl⟩ := Prod.mk.inj hfound
    rw [List.cons_append, readBraced?_of_ne hc, ← List.cons_append,
      skipColon_append (List.cons_ne_nil c t), readModifier?_append hm]
    rfl

/-- What is a reference remains one, whatever follows. -/
theorem isSome_readReference?_append {t : Text} (h : (readReference? t).isSome) (u : Text) :
    (readReference? (t ++ u)).isSome := by
  cases t with
  | nil => exact absurd h (by simp [readReference?, Text.takeName?])
  | cons c t =>
    by_cases hc : c = '\x7b'
    · subst hc
      rw [readReference?_brace] at h
      obtain ⟨found, hfound⟩ := Option.isSome_iff_exists.mp h
      obtain ⟨⟨name, rest⟩, hname, hbraced⟩ := Option.bind_eq_some_iff.mp hfound
      obtain ⟨d, rest, rfl⟩ := List.exists_cons_of_ne_nil (ne_nil_of_readBraced? hbraced)
      rw [List.cons_append, readReference?_brace, Text.takeName?_append hname]
      exact Option.isSome_of_eq_some (readBraced?_append hbraced u)
    · rw [readReference?_of_ne hc, Option.isSome_map] at h
      rw [List.cons_append, readReference?_of_ne hc, Option.isSome_map]
      exact Text.isSome_takeName?_append h u

end Segment

namespace Text

variable {t : Text} {c : Char}

theorem HasReference.append (h : HasReference t) (u v : Text) : HasReference (u ++ t ++ v) := by
  obtain ⟨before, behind, rfl, hread⟩ := h
  exact ⟨u ++ before, behind ++ v, by simp, Segment.isSome_readReference?_append hread v⟩

theorem HasReference.dollar_mem (h : HasReference t) : '$' ∈ t := by
  obtain ⟨before, behind, rfl, -⟩ := h
  simp

/-- A reference in two texts begins in the first, and may go on in the second, or is in that. -/
theorem hasReference_append_iff {t u : Text} :
    HasReference (t ++ u) ↔
      (∃ before behind, t = before ++ '$' :: behind ∧
        (Segment.readReference? (behind ++ u)).isSome) ∨ HasReference u := by
  constructor
  · rintro ⟨before, behind, ht, hread⟩
    rcases List.append_eq_append_iff.mp ht with ⟨rest, rfl, hu⟩ | ⟨rest, rfl, hbehind⟩
    · exact Or.inr ⟨rest, behind, hu, hread⟩
    · cases rest with
      | nil => exact Or.inr ⟨[], behind, hbehind.symm, hread⟩
      | cons c rest =>
        obtain ⟨rfl, rfl⟩ := List.cons.inj hbehind
        exact Or.inl ⟨before, rest, rfl, hread⟩
  · rintro (⟨before, behind, rfl, hread⟩ | h)
    · exact ⟨before, behind ++ u, by simp, hread⟩
    · simpa using h.append t []

theorem hasReference_cons_iff :
    HasReference (c :: t) ↔
      (c = '$' ∧ (Segment.readReference? t).isSome) ∨ HasReference t := by
  refine (hasReference_append_iff (t := [c])).trans (or_congr_left ⟨?_, ?_⟩)
  · rintro ⟨before, behind, hc, hread⟩
    cases before with
    | nil =>
      obtain ⟨rfl, rfl⟩ := List.cons.inj hc
      exact ⟨rfl, hread⟩
    | cons d before => exact absurd (List.cons.inj hc).2 (by simp)
  · rintro ⟨rfl, hread⟩
    exact ⟨[], [], rfl, hread⟩

/-- A text contains a reference just if it is read as one somewhere. -/
theorem hasReference_iff : HasReference t ↔ ∃ s ∈ Segment.ofText t, s.isReference = true := by
  fun_induction Segment.ofText t with
  | case1 => exact iff_of_false (fun h => List.not_mem_nil h.dollar_mem) (by simp)
  | case2 t segment rest hread ih =>
    refine iff_of_true (hasReference_cons_iff.mpr (Or.inl ⟨rfl, ?_⟩)) ⟨segment, ?_, ?_⟩
    · exact Option.isSome_of_eq_some hread
    · exact List.mem_cons_self
    · exact Segment.isReference_of_readReference? hread
  | case3 t hread ih =>
    rw [hasReference_cons_iff, hread, ih]
    simp [Segment.isReference]
  | case4 c t hc ih =>
    rw [hasReference_cons_iff, ih]
    simp [hc, Segment.isReference]

instance (t : Text) : Decidable (HasReference t) :=
  decidable_of_iff ((Segment.ofText t).any Segment.isReference = true)
    (List.any_eq_true.trans hasReference_iff.symm)

end Text

/-! ## What is inserted -/

/-- The word of a modifier. -/
def Modifier.word : Modifier → Text
  | orElse word => word
  | andThen word => word

namespace Segment

/-- A reference begins in what stands in a segment's place, and may go on in what stands in the
place of the segments behind it. -/
def BeginsReference (values : OrderedMap Text Text) (s : Segment) (behind : List Segment) : Prop :=
  ∃ before rest, s.expand values = before ++ '$' :: rest ∧
    (readReference? (rest ++ behind.flatMap (expand values))).isSome

/-- Whether a dollar sign may stand where a segment was: because it is one, or because one is in its
word or in the value of its variable. -/
def mayKeepDollar (values : OrderedMap Text Text) : Segment → Bool
  | char c => c = '$'
  | reference name modifier =>
    (modifier.any fun m => m.word.contains '$') ||
      (values.get? name).any fun value => value.contains '$'

theorem mayKeepDollar_of_mem_expand {values : OrderedMap Text Text} {s : Segment}
    (h : '$' ∈ s.expand values) : s.mayKeepDollar values = true := by
  have hvalue (name : Text) (h : '$' ∈ (values.get? name).getD []) :
      ((values.get? name).any fun value => value.contains '$') = true := by
    cases hname : values.get? name with
    | none => simp [hname] at h
    | some value => simpa [hname] using h
  cases s with
  | char c => exact decide_eq_true (List.mem_singleton.mp h).symm
  | reference name modifier =>
    rw [mayKeepDollar, Bool.or_eq_true]
    match modifier with
    | none => exact Or.inr (hvalue name h)
    | some (.orElse word) =>
      rw [expand] at h
      split at h
      · exact Or.inl (by simpa [Modifier.word] using h)
      · exact Or.inr (hvalue name h)
    | some (.andThen word) =>
      rw [expand] at h
      split at h
      · exact absurd h List.not_mem_nil
      · exact Or.inl (by simpa [Modifier.word] using h)

end Segment

namespace Text

variable {t : Text} {values : OrderedMap Text Text}

/-- Whether a dollar sign may be left when the references in a text are replaced. -/
def mayKeepDollar (t : Text) (values : OrderedMap Text Text) : Bool :=
  (Segment.ofText t).any (Segment.mayKeepDollar values)

theorem mayKeepDollar_of_mem_expand (h : '$' ∈ (t.expand values).text) :
    t.mayKeepDollar values = true := by
  obtain ⟨s, hs, hdollar⟩ := List.mem_flatMap.mp h
  exact List.any_eq_true.mpr ⟨s, hs, Segment.mayKeepDollar_of_mem_expand hdollar⟩

/-- Segments expand to a text with a reference just if one of them begins it. -/
theorem hasReference_flatMap_iff {segments : List Segment} :
    HasReference (segments.flatMap (Segment.expand values)) ↔
      ∃ front s back, segments = front ++ s :: back ∧ s.BeginsReference values back := by
  induction segments with
  | nil => exact iff_of_false (fun h => List.not_mem_nil h.dollar_mem) (by simp)
  | cons s segments ih =>
    rw [List.flatMap_cons, hasReference_append_iff, ih]
    constructor
    · rintro (h | ⟨front, other, back, rfl, h⟩)
      · exact ⟨[], s, segments, rfl, h⟩
      · exact ⟨s :: front, other, back, rfl, h⟩
    · rintro ⟨front, other, back, hsplit, h⟩
      cases front with
      | nil =>
        obtain ⟨rfl, rfl⟩ := List.cons.inj hsplit
        exact Or.inl h
      | cons first front => exact Or.inr ⟨front, other, back, (List.cons.inj hsplit).2, h⟩

/-- Nothing that is inserted is looked into. -/
theorem hasReference_expand {s : Segment} (hs : s ∈ Segment.ofText t)
    (h : HasReference (s.expand values)) : HasReference (t.expand values).text := by
  obtain ⟨before, behind, hsplit⟩ := List.append_of_mem hs
  have htext : (t.expand values).text = before.flatMap (Segment.expand values) ++
      s.expand values ++ behind.flatMap (Segment.expand values) := by
    simp [Text.expand, hsplit]
  exact htext ▸ h.append _ _

theorem resolved_expand_iff : (t.expand values).resolved = true ↔
    ∀ name, .reference name none ∈ Segment.ofText t → ∃ value, values.get? name = some value := by
  have hcontains (name : Text) :
      values.contains name = true ↔ ∃ value, values.get? name = some value := by
    simp only [OrderedMap.get?_eq_some_iff, OrderedMap.contains_iff, OrderedMap.keys]
    simp
  rw [Text.expand, List.all_eq_true]
  constructor
  · exact fun h name hname => (hcontains name).mp (h _ hname)
  · intro h s hs
    cases s with
    | char c => rfl
    | reference name modifier =>
      cases modifier with
      | none => exact (hcontains name).mpr (h name hs)
      | some m => rfl

end Text

/-! ## Declared arguments -/

namespace WordScan

/-- The characters that have been read and kept. -/
def kept (s : WordScan) : Text := s.words.flatten ++ s.current

theorem kept_endWord (s : WordScan) : s.endWord.kept = s.kept := by
  unfold endWord
  split
  · rfl
  · simp [kept]

theorem kept_step (s : WordScan) (c : Char) : (s.step c).kept ⊆ s.kept ++ [c] := by
  have hpush : (s.push c).kept ⊆ s.kept ++ [c] := by simp [push, kept]
  have hsame : s.kept ⊆ s.kept ++ [c] := List.subset_append_left _ _
  unfold step
  split
  · exact hpush
  · split
    · exact hsame
    · split
      · split
        · exact hsame
        · exact hpush
      · split
        · exact hsame
        · split
          · exact (kept_endWord s).symm ▸ hsame
          · exact hpush

theorem kept_read (s : WordScan) (t : Text) : (s.read t).kept ⊆ s.kept ++ t := by
  induction t generalizing s with
  | nil => exact List.subset_append_left _ _
  | cons c t ih =>
    rw [read_cons]
    have hstep : (s.step c).kept ⊆ s.kept ++ c :: t :=
      List.Subset.trans (kept_step s c) (by simp)
    exact List.Subset.trans (ih (s.step c)) (List.append_subset.mpr ⟨hstep, by simp⟩)

end WordScan

/-- The words of a text have no characters beside those of the text. -/
theorem Text.subset_of_mem_shellWords {t word : Text} (h : word ∈ Text.shellWords t) :
    word ⊆ t := by
  intro c hc
  have hkept : c ∈ (WordScan.read {} t).endWord.kept :=
    List.mem_append_left _ (List.mem_flatten.mpr ⟨word, h, hc⟩)
  rw [WordScan.kept_endWord] at hkept
  exact WordScan.kept_read {} t hkept

namespace Instruction

theorem value_subset_word {word key value : Text} (h : wordEntry? word = some (key, value)) :
    value ⊆ word := by
  unfold wordEntry? at h
  obtain ⟨found, behind, hcut⟩ : ∃ found behind, Text.cut '=' word = (found, behind) := ⟨_, _, rfl⟩
  rw [hcut] at h
  dsimp only at h
  split at h
  · exact absurd h (by simp)
  · obtain ⟨-, rfl⟩ := Prod.mk.inj (Option.some.inj h)
    cases behind with
    | none => exact List.nil_subset _
    | some rest =>
      rw [Text.cut_eq_append (congrArg Prod.snd hcut)]
      simp

/-- The value of an argument is written where it is declared. -/
theorem subset_raw_of_mem_keyValues {i : Instruction} (hi : i.opcode = .arg) {entry : Text × Text}
    (h : entry ∈ i.keyValues.entries) : entry.2 ⊆ i.raw := by
  unfold keyValues at h
  split at h
  · exact absurd h List.not_mem_nil
  · rename_i word rest hwords
    rw [hi, if_neg (by simp)] at h
    rcases OrderedMap.mem_of_mem_insertAll h with hnone | hmem
    · exact absurd hnone List.not_mem_nil
    · obtain ⟨source, hsource, hentry⟩ := List.mem_filterMap.mp hmem
      exact List.Subset.trans (value_subset_word hentry)
        (Text.subset_of_mem_shellWords (hwords ▸ hsource))

end Instruction

namespace Stage

theorem exists_declaration {instructions : List Instruction} {name value : Text}
    (h : (declaredArgs instructions).get? name = some value) :
    value ≠ [] ∧ ∃ i ∈ instructions,
      i.opcode = .arg ∧ (name, value) ∈ i.keyValues.entries ∧ value ⊆ i.raw := by
  obtain ⟨i, hi, hdeclared⟩ := List.mem_flatMap.mp (OrderedMap.mem_of_get?_ofList h)
  unfold declared at hdeclared
  split at hdeclared
  · rename_i harg
    obtain ⟨hentry, hvalue⟩ := List.mem_filter.mp hdeclared
    refine ⟨by simpa using hvalue, i, hi, harg, hentry, ?_⟩
    exact Instruction.subset_raw_of_mem_keyValues harg hentry
  · exact absurd hdeclared List.not_mem_nil

end Stage

end Drydock
