/-
  What bodies take. The line that ends a body holds the name of its marker and nothing else, so it
  is neither blank nor a comment. `bodies_congr`: bodies are found by the lines they take and by no
  others. `bodies_append_empty`: an empty line at the very end ends no body.
-/
import Drydock.Dockerfile.Heredoc
import Drydock.Proofs.Dockerfile.LogicalLine
import Drydock.Proofs.Text.Blank

namespace Drydock

/-! ## Names -/

theorem Text.isBlank_of_isNameStart {c : Char} (h : Text.isNameStart c = true) :
    Text.isBlank c = false := by
  have hn : (65 ≤ c.toNat ∧ c.toNat ≤ 90) ∨ (97 ≤ c.toNat ∧ c.toNat ≤ 122) ∨ c.toNat = 95 := by
    have halpha : c.isAlpha = (decide (65 ≤ c.val ∧ c.val ≤ 90) ||
        (decide (97 ≤ c.val) && decide (c.val ≤ 122))) := rfl
    unfold Text.isNameStart Text.isAsciiLetter at h
    rw [halpha] at h
    simp only [Bool.or_eq_true, Bool.and_eq_true, decide_eq_true_eq, UInt32.le_iff_toNat_le] at h
    rcases h with (h | h) | h
    · exact Or.inl h
    · exact Or.inr (Or.inl h)
    · exact Or.inr (Or.inr (by rw [h]; rfl))
  unfold Text.isBlank
  simp
  omega

namespace HeredocMarker

/-- The name of a marker begins with a letter or a low line. -/
def IsNamed (m : HeredocMarker) : Prop :=
  ∃ c t, m.name = c :: t ∧ Text.isNameStart c = true

theorem exists_name_of_takeName? {t name rest : Text}
    (h : Text.takeName? t = some (name, rest)) :
    ∃ c u, name = c :: u ∧ Text.isNameStart c = true := by
  unfold Text.takeName? at h
  cases t with
  | nil => exact absurd h (by simp)
  | cons c t =>
    split at h
    · rename_i hc
      have hstart : Text.isNameStart c = true := hc
      have hname : Text.isNameChar c = true := by simp [Text.isNameChar, hstart]
      rw [List.takeWhile_cons_of_pos hname] at h
      obtain ⟨rfl, -⟩ := Prod.mk.inj (Option.some.inj h)
      exact ⟨c, _, rfl, hstart⟩
    · exact absurd h (by simp)

theorem exists_name_of_readName? {t name : Text} (h : readName? t = some name) :
    ∃ c u, name = c :: u ∧ Text.isNameStart c = true := by
  cases t with
  | nil => exact absurd h (by simp [readName?])
  | cons c t =>
    rw [readName?] at h
    split at h
    · split at h
      · rename_i hname
        split at h
        · obtain rfl := Option.some.inj h
          exact exists_name_of_takeName? hname
        · exact absurd h (by simp)
      · exact absurd h (by simp)
    · obtain ⟨⟨found, rest⟩, hname, rfl⟩ := Option.map_eq_some_iff.mp h
      exact exists_name_of_takeName? hname

theorem isNamed_of_read? {t : Text} {m : HeredocMarker} (h : read? t = some m) : m.IsNamed := by
  unfold read? at h
  split at h
  · obtain ⟨name, hname, rfl⟩ := Option.map_eq_some_iff.mp h
    exact exists_name_of_readName? hname
  · obtain ⟨name, hname, rfl⟩ := Option.map_eq_some_iff.mp h
    exact exists_name_of_readName? hname
  · exact absurd h (by simp)

theorem isNamed_of_mem_findFrom {quoting : Quoting} {before : Option Char} {t : Text}
    {m : HeredocMarker} (h : m ∈ findFrom quoting before t) : m.IsNamed := by
  induction t generalizing quoting before with
  | nil => exact absurd h List.not_mem_nil
  | cons c t ih =>
    rw [findFrom] at h
    rcases List.mem_append.mp h with h | h
    · split at h
      · exact isNamed_of_read? (Option.mem_toList.mp h)
      · exact absurd h (by simp)
    · exact ih h

theorem isNamed_of_mem_find {t : Text} {m : HeredocMarker} (h : m ∈ find t) : m.IsNamed :=
  isNamed_of_mem_findFrom h

/-! ## The end of a body -/

/-- A line that ends a body is the name of the marker between blanks. -/
theorem strip_of_endsAt {m : HeredocMarker} (hm : m.IsNamed) {line : Text}
    (h : m.endsAt line = true) : Text.strip line = m.name := by
  obtain ⟨c, u, hname, hc⟩ := hm
  have hblank := Text.isBlank_of_isNameStart hc
  obtain ⟨tabs, tail, rfl, htabs, htail⟩ : ∃ tabs tail, line = tabs ++ tail ∧
      (∀ d ∈ tabs, Text.isBlank d = true) ∧ Text.stripRight tail = m.name := by
    unfold endsAt at h
    have h := of_decide_eq_true h
    split at h
    · refine ⟨_, _, (List.takeWhile_append_dropWhile).symm, ?_, h⟩
      intro d hd
      have htab : d = '\t' := by simpa using List.all_eq_true.mp List.all_takeWhile d hd
      rw [htab]
      rfl
    · exact ⟨[], line, rfl, fun d hd => absurd hd List.not_mem_nil, h⟩
  rw [Text.strip_blanks_append htabs]
  rw [hname] at htail ⊢
  -- The name begins the rest of the line, so there is nothing to strip in front of it.
  obtain ⟨v, hv⟩ := htail ▸ Text.stripRight_isPrefix tail
  rw [List.cons_append] at hv
  rw [← hv, Text.strip_cons_of_not_blank hblank]
  rw [← hv, Text.stripRight, hblank] at htail
  simpa using htail

theorem solid_of_endsAt {m : HeredocMarker} (hm : m.IsNamed) {line : Text}
    (h : m.endsAt line = true) : isSkippedLine line = false := by
  have hstrip := strip_of_endsAt hm h
  obtain ⟨c, u, hname, hc⟩ := hm
  have hsign : c ≠ '#' := by
    rintro rfl
    exact absurd hc (by decide)
  unfold isSkippedLine isCommentLine
  rw [hstrip, hname]
  simp [hsign]

theorem not_endsAt_nil {m : HeredocMarker} (hm : m.IsNamed) : m.endsAt [] = false := by
  cases h : m.endsAt [] with
  | false => rfl
  | true => exact absurd (solid_of_endsAt hm h) (by simp [isSkippedLine_nil])

/-! ## One body -/

variable {m : HeredocMarker} {lines : List Text} {body : List Text}

/-- A body is the lines before the first one that ends it. -/
theorem body?_eq_some_iff : m.body? lines = some body ↔
    ∃ last below, lines = body ++ last :: below ∧ m.endsAt last = true ∧
      ∀ line ∈ body, m.endsAt line = false := by
  induction lines generalizing body with
  | nil =>
    constructor
    · intro h
      exact absurd h (by simp [body?])
    · rintro ⟨last, below, h, -⟩
      exact absurd h (by simp)
  | cons line rest ih =>
    rw [body?]
    cases hend : m.endsAt line with
    | true =>
      rw [if_pos rfl]
      constructor
      · intro h
        obtain rfl := Option.some.inj h
        exact ⟨line, rest, rfl, hend, fun other h => absurd h List.not_mem_nil⟩
      · rintro ⟨last, below, h, -, hbody⟩
        cases body with
        | nil => rfl
        | cons other body =>
          obtain ⟨rfl, -⟩ := List.cons.inj h
          exact absurd (hbody line List.mem_cons_self) (by simp [hend])
    | false =>
      rw [if_neg (by simp)]
      constructor
      · intro h
        obtain ⟨tail, htail, rfl⟩ := Option.map_eq_some_iff.mp h
        obtain ⟨last, below, rfl, hlast, hbody⟩ := ih.mp htail
        refine ⟨last, below, rfl, hlast, ?_⟩
        intro other hother
        rcases List.mem_cons.mp hother with rfl | hother
        · exact hend
        · exact hbody other hother
      · rintro ⟨last, below, h, hlast, hbody⟩
        cases body with
        | nil =>
          obtain ⟨rfl, -⟩ := List.cons.inj h
          exact absurd hlast (by simp [hend])
        | cons other body =>
          obtain ⟨rfl, hrest⟩ := List.cons.inj h
          refine Option.map_eq_some_iff.mpr ⟨body, ?_, rfl⟩
          exact ih.mpr ⟨last, below, hrest, hlast,
            fun line hline => hbody line (List.mem_cons_of_mem _ hline)⟩

theorem body?_length_lt (h : m.body? lines = some body) : body.length < lines.length := by
  obtain ⟨last, below, rfl, -⟩ := body?_eq_some_iff.mp h
  rw [List.length_append, List.length_cons]
  omega

/-- What stands below the line that ends a body has no influence on it. -/
theorem body?_congr (h : m.body? lines = some body) {other : List Text}
    (ht : other.take (body.length + 1) = lines.take (body.length + 1)) :
    m.body? other = some body := by
  obtain ⟨last, below, rfl, hlast, hbody⟩ := body?_eq_some_iff.mp h
  refine body?_eq_some_iff.mpr ⟨last, other.drop (body.length + 1), ?_, hlast, hbody⟩
  have htake : (body ++ last :: below).take (body.length + 1) = body ++ [last] := by
    rw [List.take_append, List.take_of_length_le (Nat.le_succ _)]
    simp
  rw [htake] at ht
  conv => lhs; rw [← List.take_append_drop (body.length + 1) other, ht]
  rw [List.append_assoc, List.singleton_append]

/-- The line that ends a body is neither blank nor a comment. -/
theorem endsSolid_body? (hm : m.IsNamed) (h : m.body? lines = some body) :
    EndsSolid lines (body.length + 1) := by
  obtain ⟨last, below, rfl, hlast, -⟩ := body?_eq_some_iff.mp h
  intro line hline
  rw [List.take_append] at hline
  simp only [Nat.add_sub_cancel_left, List.take_succ_cons, List.take_zero,
    List.getLast?_append, List.getLast?_singleton, Option.some_or] at hline
  obtain rfl := Option.some.inj hline
  exact solid_of_endsAt hm hlast

theorem body?_append_empty (hm : m.IsNamed) (lines : List Text) :
    m.body? (lines ++ [[]]) = m.body? lines := by
  induction lines with
  | nil =>
    rw [List.nil_append, body?, body?, not_endsAt_nil hm]
    rfl
  | cons line rest ih => rw [List.cons_append, body?, body?, ih]

/-! ## All bodies of a step -/

variable {markers : List HeredocMarker} {found : List (List Text)}

theorem size_cons (body : List Text) (found : List (List Text)) :
    size (body :: found) = body.length + 1 + size found := by
  unfold size
  rw [List.flatten_cons, List.length_append, List.length_cons]
  omega

theorem bodies_cons_eq_ok_iff : bodies (m :: markers) lines = .ok found ↔
    ∃ body rest, m.body? lines = some body ∧
      bodies markers (lines.drop (body.length + 1)) = .ok rest ∧ found = body :: rest := by
  rw [bodies]
  cases hbody : m.body? lines with
  | none => simp
  | some body =>
    cases hrest : bodies markers (lines.drop (body.length + 1)) with
    | error marker => simp [hrest, Except.map]
    | ok rest => simp [hrest, Except.map, eq_comm]

theorem size_bodies_le (h : bodies markers lines = .ok found) : size found ≤ lines.length := by
  induction markers generalizing lines found with
  | nil =>
    obtain rfl := Except.ok.inj h
    exact Nat.zero_le _
  | cons m markers ih =>
    obtain ⟨body, rest, hbody, hrest, rfl⟩ := bodies_cons_eq_ok_iff.mp h
    have hlt := body?_length_lt hbody
    have hle := ih hrest
    rw [List.length_drop] at hle
    rw [size_cons]
    omega

/-- What stands below the bodies of a step has no influence on them. -/
theorem bodies_congr (h : bodies markers lines = .ok found) {other : List Text}
    (ht : other.take (size found) = lines.take (size found)) :
    bodies markers other = .ok found := by
  induction markers generalizing lines found other with
  | nil => exact h
  | cons m markers ih =>
    obtain ⟨body, rest, hbody, hrest, rfl⟩ := bodies_cons_eq_ok_iff.mp h
    rw [size_cons] at ht
    have hfirst := congrArg (List.take (body.length + 1)) ht
    have hbelow := congrArg (List.drop (body.length + 1)) ht
    rw [List.take_take, List.take_take, Nat.min_eq_left (Nat.le_add_right _ _)] at hfirst
    rw [List.drop_take, List.drop_take, Nat.add_sub_cancel_left] at hbelow
    exact bodies_cons_eq_ok_iff.mpr ⟨body, rest, body?_congr hbody hfirst, ih hrest hbelow, rfl⟩

/-- A body is a run of the lines in which it is found. -/
theorem infix_of_bodies (h : bodies markers lines = .ok found) :
    ∀ body ∈ found, body <:+: lines := by
  induction markers generalizing lines found with
  | nil =>
    obtain rfl := Except.ok.inj h
    exact fun body hbody => absurd hbody List.not_mem_nil
  | cons m markers ih =>
    obtain ⟨first, rest, hfirst, hrest, rfl⟩ := bodies_cons_eq_ok_iff.mp h
    intro body hbody
    rcases List.mem_cons.mp hbody with rfl | hbody
    · obtain ⟨last, below, rfl, -⟩ := body?_eq_some_iff.mp hfirst
      exact (List.prefix_append _ _).isInfix
    · exact (ih hrest body hbody).trans (List.drop_suffix _ _).isInfix

/-- The bodies of a step end on a line that is neither blank nor a comment. -/
theorem endsSolid_bodies (hm : ∀ m ∈ markers, m.IsNamed) (h : bodies markers lines = .ok found) :
    EndsSolid lines (size found) := by
  induction markers generalizing lines found with
  | nil =>
    obtain rfl := Except.ok.inj h
    exact endsSolid_zero _
  | cons m markers ih =>
    obtain ⟨body, rest, hbody, hrest, rfl⟩ := bodies_cons_eq_ok_iff.mp h
    rw [size_cons]
    exact endsSolid_add (endsSolid_body? (hm m List.mem_cons_self) hbody)
      (ih (fun m h => hm m (List.mem_cons_of_mem _ h)) hrest)

/-- An empty line at the very end ends no body and belongs to none. -/
theorem bodies_append_empty (hm : ∀ m ∈ markers, m.IsNamed) (lines : List Text) :
    bodies markers (lines ++ [[]]) = bodies markers lines := by
  induction markers generalizing lines with
  | nil => rfl
  | cons m markers ih =>
    rw [bodies, bodies, body?_append_empty (hm m List.mem_cons_self)]
    cases hbody : m.body? lines with
    | none => rfl
    | some body =>
      have hlt := body?_length_lt hbody
      have hrest := ih (fun m h => hm m (List.mem_cons_of_mem _ h)) (lines.drop (body.length + 1))
      dsimp only
      rw [List.drop_append_of_le_length hlt, hrest]

end HeredocMarker

end Drydock
