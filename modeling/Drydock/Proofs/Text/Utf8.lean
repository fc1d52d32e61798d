/-
  What is written as UTF-8 is read again. The octets of a character are its first one, which tells
  how many there are, and continuations in range (`spells_encodeChar`). They are read off the front
  of any octets as the number that they spell, and so a text is read as itself (`decode_encode`).
-/
import Drydock.Text.Utf8
import Mathlib.Data.List.TakeWhile
import Mathlib.Tactic.SplitIfs

namespace Drydock.Text.Utf8

/-! ## Octets as numbers -/

theorem toNat_continuation (n : Nat) : (continuation n).toNat = 0x80 + n % 0x40 := by
  rw [continuation, UInt8.toNat_ofNat']
  omega

theorem isContinuation_iff {octet : UInt8} :
    isContinuation octet = true ↔ 0x80 ≤ octet.toNat ∧ octet.toNat < 0xC0 := by
  simp [isContinuation, UInt8.le_iff_toNat_le, UInt8.lt_iff_toNat_lt]

theorem isContinuation_continuation (n : Nat) : isContinuation (continuation n) = true := by
  rw [isContinuation_iff, toNat_continuation]
  omega

theorem width?_eq (octet : UInt8) : width? octet =
    if octet.toNat < 0x80 then some 1
    else if octet.toNat < 0xC2 then none
    else if octet.toNat < 0xE0 then some 2
    else if octet.toNat < 0xF0 then some 3
    else if octet.toNat < 0xF5 then some 4
    else none := by
  simp only [width?, UInt8.lt_iff_toNat_lt]
  rfl

theorem secondFits_of_bounds {first second : UInt8}
    (h : 0x80 ≤ second.toNat ∧ second.toNat < 0xC0)
    (hE0 : first.toNat = 0xE0 → 0xA0 ≤ second.toNat)
    (hED : first.toNat = 0xED → second.toNat < 0xA0)
    (hF0 : first.toNat = 0xF0 → 0x90 ≤ second.toNat)
    (hF4 : first.toNat = 0xF4 → second.toNat < 0x90) : secondFits first second = true := by
  rw [secondFits, isContinuation_iff.mpr h, Bool.true_and]
  simp only [← UInt8.toNat_inj, UInt8.le_iff_toNat_le, UInt8.lt_iff_toNat_lt]
  split_ifs with h1 h2 h3 h4
  · exact decide_eq_true (hE0 h1)
  · exact decide_eq_true (hED h2)
  · exact decide_eq_true (hF0 h3)
  · exact decide_eq_true (hF4 h4)
  · rfl

/-! ## One character -/

/-- Octets of which the first tells how many there are, and the others are continuations in range. -/
structure Spells (first : UInt8) (others : Octets) (n : Nat) : Prop where
  width : width? first = some (others.length + 1)
  second : ∀ second ∈ others.head?, secondFits first second = true
  continuations : ∀ octet ∈ others.tail, isContinuation octet = true
  value : assemble first others = n

section Spells

variable {first : UInt8} {others : Octets} {n : Nat}

theorem Spells.readContinuations (h : Spells first others n) (rest : Octets) :
    Utf8.readContinuations first (others.length + 1) (others ++ rest) = .ok others := by
  unfold Utf8.readContinuations
  rw [Nat.add_sub_cancel, List.take_left]
  cases others with
  | nil => rfl
  | cons second others =>
    have hall : others.takeWhile isContinuation = others :=
      List.takeWhile_eq_self_iff.mpr h.continuations
    simp [h.second second rfl, hall]

theorem decodeFrom_skip (position : Nat) (front rest : Octets) :
    decodeFrom position front.length (front ++ rest) =
      decodeFrom (position + front.length) 0 rest := by
  induction front generalizing position with
  | nil => rfl
  | cons octet front ih =>
    rw [List.cons_append, List.length_cons, decodeFrom, ih]
    congr 1
    omega

theorem Spells.decodeFrom (h : Spells first others n) (position : Nat) (rest : Octets) :
    Utf8.decodeFrom position 0 (first :: others ++ rest) =
      (Utf8.decodeFrom (position + 1 + others.length) 0 rest).map (Char.ofNat n :: ·) := by
  rw [List.cons_append, Utf8.decodeFrom, h.width]
  dsimp only
  rw [h.readContinuations]
  dsimp only
  rw [Nat.add_sub_cancel, decodeFrom_skip, h.value]

end Spells

theorem toNat_ofNat_of_lt {n : Nat} (h : n < 0x100) : (UInt8.ofNat n).toNat = n := by
  rw [UInt8.toNat_ofNat']
  omega

theorem spells_one {n : Nat} (h : n < 0x80) : Spells (UInt8.ofNat n) [] n where
  width := by
    rw [width?_eq, toNat_ofNat_of_lt (by omega), if_pos h]
    rfl
  second := fun _ hsecond => absurd hsecond (by simp)
  continuations := fun _ hoctet => absurd hoctet (by simp)
  value := toNat_ofNat_of_lt (by omega)

theorem spells_two {n : Nat} (hlow : 0x80 ≤ n) (h : n < 0x800) :
    Spells (UInt8.ofNat (0xC0 + n / 0x40)) [continuation n] n where
  width := by
    rw [width?_eq, toNat_ofNat_of_lt (by omega), if_neg (by omega), if_neg (by omega),
      if_pos (by omega)]
    rfl
  second := by
    intro second hsecond
    obtain rfl := Option.some.inj hsecond
    have hfirst := toNat_ofNat_of_lt (by omega : 0xC0 + n / 0x40 < 0x100)
    have hsecond := toNat_continuation n
    refine secondFits_of_bounds ?_ ?_ ?_ ?_ ?_ <;> omega
  continuations := fun _ hoctet => absurd hoctet (by simp)
  value := by
    simp only [assemble, List.length_singleton, List.foldl_cons, List.foldl_nil,
      toNat_continuation, toNat_ofNat_of_lt (by omega : 0xC0 + n / 0x40 < 0x100)]
    omega

theorem spells_three {n : Nat} (hlow : 0x800 ≤ n) (h : n < 0x10000)
    (hvalid : n < 0xD800 ∨ 0xDFFF < n) :
    Spells (UInt8.ofNat (0xE0 + n / 0x1000)) [continuation (n / 0x40), continuation n] n where
  width := by
    rw [width?_eq, toNat_ofNat_of_lt (by omega), if_neg (by omega), if_neg (by omega),
      if_neg (by omega), if_pos (by omega)]
    rfl
  second := by
    intro second hsecond
    obtain rfl := Option.some.inj hsecond
    have hfirst := toNat_ofNat_of_lt (by omega : 0xE0 + n / 0x1000 < 0x100)
    have hsecond := toNat_continuation (n / 0x40)
    refine secondFits_of_bounds ?_ ?_ ?_ ?_ ?_ <;> omega
  continuations := by
    intro octet hoctet
    obtain rfl := List.mem_singleton.mp hoctet
    exact isContinuation_continuation n
  value := by
    simp only [assemble, List.length_cons, List.length_nil, List.foldl_cons, List.foldl_nil,
      toNat_continuation, toNat_ofNat_of_lt (by omega : 0xE0 + n / 0x1000 < 0x100)]
    omega

theorem spells_four {n : Nat} (hlow : 0x10000 ≤ n) (h : n < 0x110000) :
    Spells (UInt8.ofNat (0xF0 + n / 0x40000))
      [continuation (n / 0x1000), continuation (n / 0x40), continuation n] n where
  width := by
    rw [width?_eq, toNat_ofNat_of_lt (by omega), if_neg (by omega), if_neg (by omega),
      if_neg (by omega), if_neg (by omega), if_pos (by omega)]
    rfl
  second := by
    intro second hsecond
    obtain rfl := Option.some.inj hsecond
    have hfirst := toNat_ofNat_of_lt (by omega : 0xF0 + n / 0x40000 < 0x100)
    have hsecond := toNat_continuation (n / 0x1000)
    refine secondFits_of_bounds ?_ ?_ ?_ ?_ ?_ <;> omega
  continuations := by
    intro octet hoctet
    simp only [List.tail_cons, List.mem_cons, List.not_mem_nil, or_false] at hoctet
    rcases hoctet with rfl | rfl <;> exact isContinuation_continuation _
  value := by
    simp only [assemble, List.length_cons, List.length_nil, List.foldl_cons, List.foldl_nil,
      toNat_continuation, toNat_ofNat_of_lt (by omega : 0xF0 + n / 0x40000 < 0x100)]
    omega

/-- The octets of a character spell its number. -/
theorem spells_encodeChar (c : Char) :
    ∃ first others, encodeChar c = first :: others ∧ Spells first others c.toNat := by
  have hvalid : c.toNat < 0xD800 ∨ (0xDFFF < c.toNat ∧ c.toNat < 0x110000) := c.valid
  unfold encodeChar
  dsimp only
  generalize c.toNat = n at hvalid
  split_ifs with hone htwo hthree
  · exact ⟨_, _, rfl, spells_one hone⟩
  · exact ⟨_, _, rfl, spells_two (by omega) htwo⟩
  · exact ⟨_, _, rfl, spells_three (by omega) hthree (by omega)⟩
  · exact ⟨_, _, rfl, spells_four (by omega) (by omega)⟩

/-! ## Whole texts -/

theorem decodeFrom_encode (position : Nat) (t : Text) :
    decodeFrom position 0 (encode t) = .ok t := by
  induction t generalizing position with
  | nil => rfl
  | cons c t ih =>
    obtain ⟨first, others, hwritten, hspells⟩ := spells_encodeChar c
    have hencode : encode (c :: t) = first :: others ++ encode t := by
      rw [encode, List.flatMap_cons, hwritten]
      rfl
    rw [hencode, hspells.decodeFrom, ih, Char.ofNat_toNat]
    rfl

/-- A text is read as itself. -/
theorem decode_encode (t : Text) : decode (encode t) = .ok t := decodeFrom_encode 0 t

end Drydock.Text.Utf8
