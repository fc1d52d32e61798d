/-
  Arrays of strings, as JSON has them. The grammar is stated apart from the reader (`IsTextArray`):
  what may stand between the quotes of a string, strings between commas, and blanks around them. The
  reader takes just what the grammar allows, so texts are read from a document exactly if it holds
  an array of strings (`exists_loadTexts_iff`).
-/
import Drydock.Proofs.Except
import Drydock.Proofs.Json.Documents
import Mathlib.Data.List.TakeWhile

namespace Drydock.Json

/-! ## The grammar -/

/-- Blanks between the parts of a document. -/
def IsGap (t : Text) : Prop := ∀ c ∈ t, isBlank c = true

/-- A digit of a 16-bit unit. -/
def IsHexDigit (c : Char) : Prop :=
  ('0' ≤ c ∧ c ≤ '9') ∨ ('a' ≤ c ∧ c ≤ 'f') ∨ ('A' ≤ c ∧ c ≤ 'F')

/-- The characters that may stand behind a backslash, but for the one that opens a unit. -/
def escapes : List Char := ['"', '\\', '/', 'b', 'f', 'n', 'r', 't']

/-- What may stand between the quotes of a string. -/
inductive IsInside : Text → Prop
  | nil : IsInside []
  | char {c : Char} {t : Text} : 0x20 ≤ c.toNat → c ≠ '"' → c ≠ '\\' → IsInside t →
      IsInside (c :: t)
  | escape {c : Char} {t : Text} : c ∈ escapes → IsInside t → IsInside ('\\' :: c :: t)
  | unit {a b c d : Char} {t : Text} : IsHexDigit a → IsHexDigit b → IsHexDigit c → IsHexDigit d →
      IsInside t → IsInside ('\\' :: 'u' :: a :: b :: c :: d :: t)

/-- Strings with commas between them, and blanks behind each. -/
inductive AreStrings : Text → Prop
  | last {s gap : Text} : IsInside s → IsGap gap → AreStrings ('"' :: (s ++ '"' :: gap))
  | cons {s gap gap' t : Text} : IsInside s → IsGap gap → IsGap gap' → AreStrings t →
      AreStrings ('"' :: (s ++ '"' :: (gap ++ ',' :: (gap' ++ t))))

/-- An array of strings. -/
inductive IsTextArray : Text → Prop
  | empty {gap : Text} : IsGap gap → IsTextArray ('[' :: (gap ++ [']']))
  | strings {gap t : Text} : IsGap gap → AreStrings t → IsTextArray ('[' :: (gap ++ (t ++ [']'])))

/-! ## Blanks -/

theorem isGap_nil : IsGap [] := fun _ hc => absurd hc List.not_mem_nil

theorem exists_gap (t : Text) : ∃ gap, IsGap gap ∧ t = gap ++ skipBlanks t :=
  ⟨t.takeWhile isBlank, fun _ hc => List.mem_takeWhile_imp hc,
    List.takeWhile_append_dropWhile.symm⟩

theorem IsGap.skipBlanks_append {gap : Text} (h : IsGap gap) (t : Text) :
    skipBlanks (gap ++ t) = skipBlanks t :=
  List.dropWhile_append_of_pos h

theorem IsGap.skipBlanks_cons {gap : Text} (h : IsGap gap) {c : Char} (hc : isBlank c = false)
    (t : Text) : skipBlanks (gap ++ c :: t) = c :: t := by
  rw [h.skipBlanks_append, skipBlanks_of_not_blank hc]

/-! ## Strings -/

theorem isHexDigit_iff {c : Char} : (Text.baseDigit? 16 c).isSome = true ↔ IsHexDigit c := by
  have hle (a b : Char) : a ≤ b ↔ a.toNat ≤ b.toNat := Iff.rfl
  simp only [IsHexDigit, hle, Text.baseDigit?]
  split_ifs <;> simp_all <;> omega

theorem unit?_isSome_iff {a b c d : Char} : (unit? a b c d).isSome = true ↔
    IsHexDigit a ∧ IsHexDigit b ∧ IsHexDigit c ∧ IsHexDigit d := by
  simp only [unit?, ← isHexDigit_iff, Option.isSome_map, List.mapM_cons, List.mapM_nil]
  cases Text.baseDigit? 16 a <;> cases Text.baseDigit? 16 b <;> cases Text.baseDigit? 16 c <;>
    cases Text.baseDigit? 16 d <;> simp

theorem simpleEscape?_isSome_iff {c : Char} : (simpleEscape? c).isSome = true ↔ c ∈ escapes := by
  unfold simpleEscape? escapes
  split_ifs with h
  · rw [Bool.or_eq_true, Bool.or_eq_true, decide_eq_true_eq, decide_eq_true_eq,
      decide_eq_true_eq] at h
    rcases h with (rfl | rfl) | rfl <;> simp
  all_goals simp_all

/-- Where a string is read, the grammar has one. -/
theorem exists_inside_of_readPieces {t rest : Text} {pieces : List Piece}
    (h : readPieces t = some (pieces, rest)) : ∃ s, IsInside s ∧ t = s ++ '"' :: rest := by
  fun_induction readPieces t generalizing pieces with
  | case1 => exact absurd h (by simp)
  | case2 t =>
    obtain ⟨-, rfl⟩ := Prod.mk.inj (Option.some.inj h)
    exact ⟨[], .nil, rfl⟩
  | case3 a b c d t n inner last hread hunit ih =>
    obtain ⟨-, rfl⟩ := Prod.mk.inj (Option.some.inj h)
    obtain ⟨s, hs, rfl⟩ := ih hread
    obtain ⟨ha, hb, hc, hd⟩ := unit?_isSome_iff.mp (Option.isSome_of_eq_some hunit)
    exact ⟨_, .unit ha hb hc hd hs, rfl⟩
  | case4 => exact absurd h (by simp)
  | case5 c t hu e inner last hread hescape ih =>
    obtain ⟨-, rfl⟩ := Prod.mk.inj (Option.some.inj h)
    obtain ⟨s, hs, rfl⟩ := ih hread
    exact ⟨_, .escape (simpleEscape?_isSome_iff.mp (Option.isSome_of_eq_some hescape)) hs, rfl⟩
  | case6 => exact absurd h (by simp)
  | case7 => exact absurd h (by simp)
  | case8 c t hquote hu hback hlow inner last hread ih =>
    obtain ⟨-, rfl⟩ := Prod.mk.inj (Option.some.inj h)
    obtain ⟨s, hs, rfl⟩ := ih hread
    have hsolid : c ≠ '\\' := by
      -- A backslash takes the character behind it, which is there.
      rintro rfl
      obtain ⟨d, u, hdu⟩ : ∃ d u, s ++ '"' :: last = d :: u := by
        cases s with
        | nil => exact ⟨_, _, rfl⟩
        | cons d s => exact ⟨_, _, rfl⟩
      exact hback d u rfl hdu
    exact ⟨_, .char (Nat.le_of_not_lt hlow) hquote hsolid hs, rfl⟩
  | case9 => exact absurd h (by simp)

/-- Where the grammar has a string, it is read. -/
theorem exists_readPieces {s : Text} (h : IsInside s) (rest : Text) :
    ∃ pieces, readPieces (s ++ '"' :: rest) = some (pieces, rest) := by
  induction h with
  | nil => exact ⟨[], rfl⟩
  | @char c t hlow hquote hback ht ih =>
    obtain ⟨pieces, hread⟩ := ih
    have hchar := readPieces_char hquote hback hlow (t ++ '"' :: rest)
    exact ⟨_, hchar.trans (congrArg (Option.map _) hread)⟩
  | @escape c t hc ht ih =>
    obtain ⟨pieces, hread⟩ := ih
    obtain ⟨e, he⟩ := Option.isSome_iff_exists.mp (simpleEscape?_isSome_iff.mpr hc)
    have hu : c ≠ 'u' := by
      rintro rfl
      exact absurd hc (by decide)
    have hescape := readPieces_simpleEscape hu he (t ++ '"' :: rest)
    exact ⟨_, hescape.trans (congrArg (Option.map _) hread)⟩
  | @unit a b c d t ha hb hc hd ht ih =>
    obtain ⟨pieces, hread⟩ := ih
    obtain ⟨n, hn⟩ := Option.isSome_iff_exists.mp (unit?_isSome_iff.mpr ⟨ha, hb, hc, hd⟩)
    refine ⟨.unit n :: pieces, ?_⟩
    simp only [List.cons_append, readPieces, hn, hread]

theorem exists_inside_of_readString {t u rest : Text} (h : readString t = some (u, rest)) :
    ∃ s, IsInside s ∧ t = s ++ '"' :: rest := by
  obtain ⟨⟨pieces, last⟩, hread, heq⟩ := Option.map_eq_some_iff.mp h
  obtain ⟨-, rfl⟩ := Prod.mk.inj heq
  exact exists_inside_of_readPieces hread

theorem exists_readString {s : Text} (h : IsInside s) (rest : Text) :
    ∃ u, readString (s ++ '"' :: rest) = some (u, rest) := by
  obtain ⟨pieces, hread⟩ := exists_readPieces h rest
  exact ⟨joinPieces pieces, by rw [readString, hread, Option.map_some]⟩

/-! ## Values -/

variable {most : Option Nat}

theorem expected_eq_ok_iff {α : Type} {o : Option α} {a : α} :
    expected o = .ok a ↔ o = some a := by
  cases o <;> simp [expected]

theorem readUnsigned_isNumber {negative : Bool} {t rest : Text} {v : Value}
    (h : readUnsigned most negative t = .ok (v, rest)) :
    (∃ n, v = .integer n) ∨ ∃ x, v = .float x := by
  unfold readUnsigned at h
  split at h
  · exact absurd h (by simp)
  · dsimp only at h
    split at h
    · obtain ⟨n, -, heq⟩ := exists_of_map_eq_ok h
      exact .inl ⟨_, (Prod.mk.inj heq).1.symm⟩
    · exact .inr ⟨_, (Prod.mk.inj (Except.ok.inj h)).1.symm⟩

/-- No name and no number stands for a text or an array. -/
theorem readScalar_isScalar {t rest : Text} {v : Value}
    (h : readScalar most t = .ok (v, rest)) :
    (∀ s, v ≠ .text s) ∧ ∀ items, v ≠ .array items := by
  have hnumber (hv : (∃ n, v = .integer n) ∨ ∃ x, v = .float x) :
      (∀ s, v ≠ .text s) ∧ ∀ items, v ≠ .array items := by
    rcases hv with ⟨n, rfl⟩ | ⟨x, rfl⟩ <;> simp
  unfold readScalar at h
  split at h
  · next result hname =>
    obtain rfl := Except.ok.inj h
    obtain ⟨⟨name, u⟩, hmem, hdrop⟩ := List.exists_of_findSome?_eq_some hname
    obtain ⟨behind, -, heq⟩ := Option.map_eq_some_iff.mp hdrop
    obtain ⟨rfl, -⟩ := Prod.mk.inj heq
    constructor
    · rintro s rfl
      simp [names] at hmem
    · rintro items rfl
      simp [names] at hmem
  · split at h
    · exact hnumber (readUnsigned_isNumber h)
    · exact hnumber (readUnsigned_isNumber h)

/-- What is read as a text is a string. -/
theorem exists_inside_of_readValue {fuel : Nat} {t s rest : Text}
    (h : readValue most fuel t = .ok (.text s, rest)) :
    ∃ inside, IsInside inside ∧ t = '"' :: (inside ++ '"' :: rest) := by
  cases fuel with
  | zero => exact absurd h (by simp [readValue])
  | succ fuel =>
    unfold readValue at h
    split at h
    · next behind =>
      obtain ⟨⟨u, last⟩, hread, heq⟩ := exists_of_map_eq_ok h
      obtain ⟨-, rfl⟩ := Prod.mk.inj heq
      obtain ⟨inside, hinside, rfl⟩ := exists_inside_of_readString (expected_eq_ok_iff.mp hread)
      exact ⟨inside, hinside, rfl⟩
    · split at h
      · exact absurd h (by simp)
      · obtain ⟨_, -, heq⟩ := exists_of_map_eq_ok h
        exact absurd (Prod.mk.inj heq).1 (by simp)
    · split at h
      · exact absurd h (by simp)
      · obtain ⟨_, -, heq⟩ := exists_of_map_eq_ok h
        exact absurd (Prod.mk.inj heq).1 (by simp)
    · exact absurd rfl ((readScalar_isScalar h).1 s)

theorem exists_readValue_string {s : Text} (h : IsInside s) (fuel : Nat) (rest : Text) :
    ∃ u, readValue most (fuel + 1) ('"' :: (s ++ '"' :: rest)) = .ok (.text u, rest) := by
  obtain ⟨u, hread⟩ := exists_readString h rest
  exact ⟨u, by rw [readValue, hread]; rfl⟩

/-! ## Items -/

/-- Where an array of strings is read behind its bracket, the grammar has strings. -/
theorem exists_strings_of_readItems {fuel : Nat} {t rest : Text} {texts : List Text}
    (h : readItems most fuel t = .ok (texts.map Value.text, rest)) :
    ∃ inside, AreStrings inside ∧ t = inside ++ ']' :: rest := by
  induction fuel generalizing t texts with
  | zero => exact absurd h (by simp [readItems])
  | succ fuel ih =>
    rw [readItems] at h
    split at h
    · exact absurd h (by simp)
    · next item behind hitem =>
      obtain ⟨gap, hgap, hbehind⟩ := exists_gap behind
      split at h
      · next last hclose =>
        obtain ⟨hitems, rfl⟩ := Prod.mk.inj (Except.ok.inj h)
        obtain ⟨s, -, hs⟩ := List.mem_map.mp (hitems ▸ List.mem_singleton_self item)
        obtain ⟨inside, hinside, rfl⟩ := exists_inside_of_readValue (hs ▸ hitem)
        refine ⟨_, .last hinside hgap, ?_⟩
        rw [hbehind, hclose]
        simp
      · next u hcomma =>
        obtain ⟨⟨items, last⟩, hmore, heq⟩ := exists_of_map_eq_ok h
        obtain ⟨hitems, rfl⟩ := Prod.mk.inj heq
        obtain ⟨s, more, rfl, hs, rfl⟩ := List.map_eq_cons_iff.mp hitems.symm
        obtain ⟨inside, hinside, rfl⟩ := exists_inside_of_readValue (hs ▸ hitem)
        obtain ⟨others, hothers, hu⟩ := ih hmore
        obtain ⟨gap', hgap', hnext⟩ := exists_gap u
        refine ⟨_, .cons hinside hgap hgap' hothers, ?_⟩
        rw [hbehind, hcomma, hnext, hu]
        simp
      · exact absurd h (by simp)

theorem AreStrings.exists_eq {t : Text} (h : AreStrings t) : ∃ u, t = '"' :: u := by
  cases h with
  | last => exact ⟨_, rfl⟩
  | cons => exact ⟨_, rfl⟩

theorem AreStrings.skipBlanks_append {t : Text} (h : AreStrings t) (rest : Text) :
    skipBlanks (t ++ rest) = t ++ rest := by
  obtain ⟨u, rfl⟩ := h.exists_eq
  exact skipBlanks_of_not_blank (by decide) _

/-- Where the grammar has strings, they are read behind the bracket of an array. -/
theorem exists_readItems {t : Text} (h : AreStrings t) {fuel : Nat} (hfuel : t.length ≤ fuel)
    (rest : Text) :
    ∃ texts : List Text,
      readItems most fuel (t ++ ']' :: rest) = .ok (texts.map .text, rest) := by
  induction h generalizing fuel with
  | @last s gap hs hgap =>
    obtain ⟨less, rfl⟩ : ∃ less, fuel = less + 2 := by
      simp only [List.length_cons, List.length_append] at hfuel
      exact ⟨fuel - 2, by omega⟩
    obtain ⟨u, hread⟩ := exists_readValue_string hs less (gap ++ ']' :: rest)
    refine ⟨[u], ?_⟩
    have hbehind := hgap.skipBlanks_cons (by decide : isBlank ']' = false) rest
    rw [List.cons_append, List.append_assoc, List.cons_append, readItems, hread]
    dsimp only
    rw [hbehind]
    rfl
  | @cons s gap gap' t hs hgap hgap' ht ih =>
    simp only [List.length_cons, List.length_append] at hfuel
    obtain ⟨less, rfl⟩ : ∃ less, fuel = less + 2 := ⟨fuel - 2, by omega⟩
    obtain ⟨texts, hmore⟩ := @ih (less + 1) (by omega)
    obtain ⟨u, hread⟩ :=
      exists_readValue_string hs less (gap ++ ',' :: (gap' ++ (t ++ ']' :: rest)))
    refine ⟨u :: texts, ?_⟩
    have hbehind :=
      hgap.skipBlanks_cons (by decide : isBlank ',' = false) (gap' ++ (t ++ ']' :: rest))
    simp only [List.cons_append, List.append_assoc]
    rw [readItems, hread]
    dsimp only
    rw [hbehind]
    show (readItems most (less + 1) _).map _ = _
    rw [hgap'.skipBlanks_append, ht.skipBlanks_append, hmore]
    rfl

/-! ## Arrays -/

theorem IsTextArray.exists_eq {array : Text} (h : IsTextArray array) :
    ∃ u, array = '[' :: (u ++ [']']) := by
  cases h with
  | empty => exact ⟨_, rfl⟩
  | @strings gap t => exact ⟨gap ++ t, by rw [List.append_assoc]⟩

/-- Where an array of strings is read, the grammar has one. -/
theorem exists_array_of_readValue {fuel : Nat} {t rest : Text} {texts : List Text}
    (h : readValue most fuel t = .ok (.array (texts.map .text), rest)) :
    ∃ array, IsTextArray array ∧ t = array ++ rest := by
  cases fuel with
  | zero => exact absurd h (by simp [readValue])
  | succ fuel =>
    unfold readValue at h
    split at h
    · next behind =>
      obtain ⟨_, -, heq⟩ := exists_of_map_eq_ok h
      exact absurd (Prod.mk.inj heq).1 (by simp)
    · next behind =>
      obtain ⟨gap, hgap, hbehind⟩ := exists_gap behind
      split at h
      · next last hclose =>
        obtain ⟨-, rfl⟩ := Prod.mk.inj (Except.ok.inj h)
        refine ⟨_, .empty hgap, ?_⟩
        rw [hbehind, hclose]
        simp
      · obtain ⟨⟨items, last⟩, hitems, heq⟩ := exists_of_map_eq_ok h
        obtain ⟨harray, rfl⟩ := Prod.mk.inj heq
        obtain rfl := Value.array.inj harray
        obtain ⟨inside, hinside, hskip⟩ := exists_strings_of_readItems hitems
        refine ⟨_, .strings hgap hinside, ?_⟩
        rw [hbehind, hskip]
        simp
    · split at h
      · exact absurd h (by simp)
      · obtain ⟨_, -, heq⟩ := exists_of_map_eq_ok h
        exact absurd (Prod.mk.inj heq).1 (by simp)
    · exact absurd rfl ((readScalar_isScalar h).2 _)

/-- Where the grammar has an array of strings, it is read. -/
theorem exists_readValue_array {array : Text} (h : IsTextArray array) {fuel : Nat}
    (hfuel : array.length ≤ fuel) (rest : Text) : ∃ texts : List Text,
      readValue most fuel (array ++ rest) = .ok (.array (texts.map .text), rest) := by
  cases h with
  | @empty gap hgap =>
    obtain ⟨less, rfl⟩ : ∃ less, fuel = less + 1 := ⟨fuel - 1, by simp at hfuel; omega⟩
    have hclose := hgap.skipBlanks_cons (by decide : isBlank ']' = false) rest
    refine ⟨[], ?_⟩
    simp only [List.cons_append, List.append_assoc, List.nil_append]
    rw [readValue, hclose]
    rfl
  | @strings gap t hgap ht =>
    simp only [List.length_cons, List.length_append] at hfuel
    obtain ⟨less, rfl⟩ : ∃ less, fuel = less + 1 := ⟨fuel - 1, by omega⟩
    obtain ⟨texts, hitems⟩ := exists_readItems ht (show t.length ≤ less by omega) rest
    have hskip : skipBlanks (gap ++ (t ++ ']' :: rest)) = t ++ ']' :: rest := by
      rw [hgap.skipBlanks_append, ht.skipBlanks_append]
    refine ⟨texts, ?_⟩
    simp only [List.cons_append, List.append_assoc, List.nil_append]
    obtain ⟨u, rfl⟩ := ht.exists_eq
    rw [readValue, hskip]
    show (readItems most less ('"' :: u ++ ']' :: rest)).map _ = _
    rw [hitems]
    rfl

/-- An array of strings with blanks around it is read as such, whatever bounds the integers. -/
theorem exists_read_array {gap array gap' : Text} (hgap : IsGap gap) (harray : IsTextArray array)
    (hgap' : IsGap gap') : ∃ texts : List Text,
      read most (gap ++ (array ++ gap')) = .ok (.array (texts.map .text)) := by
  have hfuel : array.length ≤ 2 * (gap ++ (array ++ gap')).length + 1 := by
    simp only [List.length_append]
    omega
  obtain ⟨texts, hvalue⟩ := exists_readValue_array harray hfuel gap'
  have hskip : skipBlanks (gap ++ (array ++ gap')) = array ++ gap' := by
    obtain ⟨u, rfl⟩ := harray.exists_eq
    exact hgap.skipBlanks_cons (by decide) (u ++ [']'] ++ gap')
  have hend : skipBlanks gap' = [] := List.dropWhile_eq_nil_iff.mpr hgap'
  refine ⟨texts, ?_⟩
  rw [read, hskip, hvalue]
  dsimp only
  rw [hend]
  rfl

/-- Texts are read from a document exactly if it is an array of strings with blanks around it. -/
theorem exists_loadTexts_iff {t : Text} : (∃ texts, loadTexts t = .ok texts) ↔
    ∃ gap array gap', IsGap gap ∧ IsTextArray array ∧ IsGap gap' ∧ t = gap ++ (array ++ gap') := by
  constructor
  · rintro ⟨texts, h⟩
    unfold loadTexts at h
    split at h
    · next items hread =>
      obtain rfl := Value.mapM_text?_eq_some_iff.mp (expected_eq_ok_iff.mp h)
      unfold load read at hread
      split at hread
      · exact absurd hread (by simp)
      · next v rest hvalue =>
        split at hread
        · next hend =>
          obtain rfl := Except.ok.inj hread
          obtain ⟨array, harray, hskip⟩ := exists_array_of_readValue hvalue
          obtain ⟨gap, hgap, ht⟩ := exists_gap t
          obtain ⟨gap', hgap', hrest⟩ := exists_gap rest
          rw [List.isEmpty_iff.mp hend, List.append_nil] at hrest
          exact ⟨gap, array, gap', hgap, harray, hgap', by rw [ht, hskip, hrest]⟩
        · exact absurd hread (by simp)
    · exact absurd h (by simp)
    · exact absurd h (by simp)
  · rintro ⟨gap, array, gap', hgap, harray, hgap', rfl⟩
    obtain ⟨texts, hread⟩ := exists_read_array hgap harray hgap'
    refine ⟨texts, ?_⟩
    rw [loadTexts, load, hread]
    exact congrArg expected (Value.mapM_text?_eq_some_iff.mpr rfl)

end Drydock.Json
