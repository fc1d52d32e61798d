/-
  Strings of JSON documents. Each character is written as itself, behind a backslash, or as one or
  two 16-bit units, and is spelled by what is written (`spells_escapeChar`); so a string is read as
  the text that it was written from (`readString_string`). What is written is printable ASCII
  (`isPlainAscii_string`), whatever the text.
-/
import Drydock.Json.Reader
import Drydock.Json.Writer
import Drydock.Proofs.Text.Line
import Mathlib.Tactic.SplitIfs

namespace Drydock

open Text (hex hexDigit baseDigit? digitsToNat)

/-! ## Hexadecimal digits -/

theorem Text.baseDigit?_hexDigit : ∀ n < 16, baseDigit? 16 (hexDigit n) = some n := by decide

theorem Text.hexDigit_bounds :
    ∀ n < 16, 0x20 ≤ (hexDigit n).toNat ∧ (hexDigit n).toNat < 0x7F := by decide

theorem Char.toNat_cases (c : Char) :
    c.toNat < 0xD800 ∨ (0xDFFF < c.toNat ∧ c.toNat < 0x110000) := c.valid

namespace Json

theorem hex_four (n : Nat) :
    hex 4 n = [hexDigit (n / 16 / 16 / 16 % 16), hexDigit (n / 16 / 16 % 16),
      hexDigit (n / 16 % 16), hexDigit (n % 16)] := rfl

/-- Four digits are read as the unit that they were written from. -/
theorem unit?_hex {n : Nat} (h : n < 0x10000) :
    unit? (hexDigit (n / 16 / 16 / 16 % 16)) (hexDigit (n / 16 / 16 % 16))
      (hexDigit (n / 16 % 16)) (hexDigit (n % 16)) = some n := by
  have hread (k : Nat) : baseDigit? 16 (hexDigit (k % 16)) = some (k % 16) :=
    Text.baseDigit?_hexDigit _ (Nat.mod_lt _ (by decide))
  have hvalue : digitsToNat 16
      [n / 16 / 16 / 16 % 16, n / 16 / 16 % 16, n / 16 % 16, n % 16] = n := by
    simp only [digitsToNat, List.foldl_cons, List.foldl_nil]
    omega
  simp [unit?, hread, hvalue]

/-! ## Reading pieces -/

theorem readPieces_unitEscape {n : Nat} (h : n < 0x10000) (t : Text) :
    readPieces (unitEscape n ++ t) = (readPieces t).map fun r => (.unit n :: r.1, r.2) := by
  have hwritten : unitEscape n ++ t = '\\' :: 'u' :: hexDigit (n / 16 / 16 / 16 % 16) ::
      hexDigit (n / 16 / 16 % 16) :: hexDigit (n / 16 % 16) :: hexDigit (n % 16) :: t := by
    rw [unitEscape, hex_four]
    rfl
  rw [hwritten, readPieces, unit?_hex h]
  cases readPieces t <;> rfl

theorem readPieces_simpleEscape {c d : Char} (hc : c ≠ 'u') (h : simpleEscape? c = some d)
    (t : Text) :
    readPieces (['\\', c] ++ t) = (readPieces t).map fun r => (.char d :: r.1, r.2) := by
  rw [List.cons_append, List.singleton_append, readPieces, h]
  · cases readPieces t <;> rfl
  · intro _ _ _ _ _ hu _
    exact hc hu

theorem readPieces_char {c : Char} (hquote : c ≠ '"') (hback : c ≠ '\\') (hlow : 0x20 ≤ c.toNat)
    (t : Text) : readPieces ([c] ++ t) = (readPieces t).map fun r => (.char c :: r.1, r.2) := by
  rw [List.singleton_append, readPieces, if_neg (by omega)]
  · cases readPieces t <;> rfl
  · exact hquote
  · intro _ _ _ _ _ h _
    exact hback h
  · intro _ _ h _
    exact hback h

/-! ## Joining pieces -/

theorem joinPieces_unit {n : Nat} (h : isHigh n = false) (hlow : isLow n = false)
    (rest : List Piece) : joinPieces (.unit n :: rest) = Char.ofNat n :: joinPieces rest := by
  have hcharacter : unpaired n = Char.ofNat n := by simp [unpaired, h, hlow]
  rcases rest with _ | ⟨_ | _, rest⟩ <;> simp [joinPieces, h, hcharacter]

theorem joinPieces_pair {high low : Nat} (h : isHigh high = true) (hlow : isLow low = true)
    (rest : List Piece) :
    joinPieces (.unit high :: .unit low :: rest) = paired high low :: joinPieces rest := by
  rw [joinPieces, h, hlow]
  rfl

/-! ## Characters -/

/-- A text is read as pieces that make up a character, whatever stands behind them. -/
def Spells (written : Text) (c : Char) : Prop :=
  ∃ pieces,
    (∀ t, readPieces (written ++ t) = (readPieces t).map fun r => (pieces ++ r.1, r.2)) ∧
    ∀ rest, joinPieces (pieces ++ rest) = c :: joinPieces rest

theorem spells_simpleEscape {c d : Char} (hc : c ≠ 'u') (h : simpleEscape? c = some d) :
    Spells ['\\', c] d :=
  ⟨[.char d], readPieces_simpleEscape hc h, fun _ => rfl⟩

theorem spells_self {c : Char} (hquote : c ≠ '"') (hback : c ≠ '\\') (hlow : 0x20 ≤ c.toNat) :
    Spells [c] c :=
  ⟨[.char c], readPieces_char hquote hback hlow, fun _ => rfl⟩

/-- A character of 16 bits is spelled by its number. -/
theorem spells_unitEscape {c : Char} (h : c.toNat < 0x10000) : Spells (unitEscape c.toNat) c := by
  have hvalid := Char.toNat_cases c
  have hhigh : isHigh c.toNat = false := by
    simp only [isHigh, Bool.and_eq_false_iff, decide_eq_false_iff_not]
    omega
  have hlow : isLow c.toNat = false := by
    simp only [isLow, Bool.and_eq_false_iff, decide_eq_false_iff_not]
    omega
  refine ⟨[.unit c.toNat], readPieces_unitEscape h, fun rest => ?_⟩
  rw [List.singleton_append, joinPieces_unit hhigh hlow, Char.ofNat_toNat]

/-- Another character is spelled by its two halves. -/
theorem spells_unitEscapes {c : Char} (h : 0x10000 ≤ c.toNat) :
    Spells (unitEscape (0xD800 + (c.toNat - 0x10000) / 0x400) ++
      unitEscape (0xDC00 + (c.toNat - 0x10000) % 0x400)) c := by
  have hvalid := Char.toNat_cases c
  generalize hfirst : 0xD800 + (c.toNat - 0x10000) / 0x400 = first
  generalize hsecond : 0xDC00 + (c.toNat - 0x10000) % 0x400 = second
  have hhigh : isHigh first = true := by
    simp only [isHigh, Bool.and_eq_true, decide_eq_true_eq]
    omega
  have hlow : isLow second = true := by
    simp only [isLow, Bool.and_eq_true, decide_eq_true_eq]
    omega
  have hnumber : 0x10000 + (first - 0xD800) * 0x400 + (second - 0xDC00) = c.toNat := by omega
  refine ⟨[.unit first, .unit second], fun t => ?_, fun rest => ?_⟩
  · rw [List.append_assoc, readPieces_unitEscape (by omega), readPieces_unitEscape (by omega),
      Option.map_map]
    rfl
  · rw [List.cons_append, List.singleton_append, joinPieces_pair hhigh hlow, paired, hnumber,
      Char.ofNat_toNat]

/-- What is written for a character spells it. -/
theorem spells_escapeChar (c : Char) : Spells (escapeChar c) c := by
  unfold escapeChar
  dsimp only
  split_ifs with hquote hback hprintable hfeed hreturn htab hbackspace hform hsmall
  · exact spells_simpleEscape (by decide) (by rw [hquote]; decide)
  · exact spells_simpleEscape (by decide) (by rw [hback]; decide)
  · rw [Bool.and_eq_true, decide_eq_true_eq, decide_eq_true_eq] at hprintable
    exact spells_self hquote hback hprintable.1
  · exact spells_simpleEscape (by decide) (by rw [hfeed]; decide)
  · exact spells_simpleEscape (by decide) (by rw [hreturn]; decide)
  · exact spells_simpleEscape (by decide) (by rw [htab]; decide)
  · exact spells_simpleEscape (by decide) (by rw [← Char.ofNat_toNat c, hbackspace]; decide)
  · exact spells_simpleEscape (by decide) (by rw [← Char.ofNat_toNat c, hform]; decide)
  · exact spells_unitEscape hsmall
  · exact spells_unitEscapes (by omega)

/-! ## Strings -/

/-- A string is read as the text that it was written from, whatever follows it. -/
theorem readString_string (t rest : Text) :
    readString (t.flatMap escapeChar ++ '"' :: rest) = some (t, rest) := by
  have hpieces : ∃ pieces, readPieces (t.flatMap escapeChar ++ '"' :: rest) = some (pieces, rest) ∧
      joinPieces pieces = t := by
    induction t with
    | nil => exact ⟨[], rfl, rfl⟩
    | cons c t ih =>
      obtain ⟨pieces, hread, hjoin⟩ := ih
      obtain ⟨front, hfront, hc⟩ := spells_escapeChar c
      refine ⟨front ++ pieces, ?_, by rw [hc, hjoin]⟩
      rw [List.flatMap_cons, List.append_assoc, hfront, hread]
      rfl
  obtain ⟨pieces, hread, hjoin⟩ := hpieces
  rw [readString, hread, Option.map_some]
  exact congrArg (fun u => some (u, rest)) hjoin

/-- A text of printable ASCII characters. -/
def IsPlainAscii (t : Text) : Prop := ∀ c ∈ t, 0x20 ≤ c.toNat ∧ c.toNat < 0x7F

instance (t : Text) : Decidable (IsPlainAscii t) := List.decidableBAll _ t

theorem IsPlainAscii.append {t u : Text} (ht : IsPlainAscii t) (hu : IsPlainAscii u) :
    IsPlainAscii (t ++ u) :=
  fun c hc => (List.mem_append.mp hc).elim (ht c) (hu c)

theorem IsPlainAscii.isLine {t : Text} (h : IsPlainAscii t) : Text.IsLine t := by
  intro c hc
  obtain ⟨hlow, hhigh⟩ := h c hc
  simp [Text.isLineEnd]
  omega

theorem isPlainAscii_unitEscape (n : Nat) : IsPlainAscii (unitEscape n) := by
  have hdigit (k : Nat) := Text.hexDigit_bounds (k % 16) (Nat.mod_lt _ (by decide))
  rw [unitEscape, hex_four]
  have hfront : IsPlainAscii "\\u" := by decide
  refine hfront.append fun c hc => ?_
  simp only [List.mem_cons, List.not_mem_nil, or_false] at hc
  rcases hc with rfl | rfl | rfl | rfl <;> exact hdigit _

theorem isPlainAscii_escapeChar (c : Char) : IsPlainAscii (escapeChar c) := by
  unfold escapeChar
  dsimp only
  split_ifs with hquote hback hprintable
  · decide
  · decide
  · intro d hd
    obtain rfl := List.mem_singleton.mp hd
    rwa [Bool.and_eq_true, decide_eq_true_eq, decide_eq_true_eq] at hprintable
  · decide
  · decide
  · decide
  · decide
  · decide
  · exact isPlainAscii_unitEscape _
  · exact (isPlainAscii_unitEscape _).append (isPlainAscii_unitEscape _)

theorem isPlainAscii_string (t : Text) : IsPlainAscii (string t) := by
  have hquote : IsPlainAscii ['"'] := by decide
  refine (hquote.append fun c hc => ?_).append hquote
  obtain ⟨d, -, hd⟩ := List.mem_flatMap.mp hc
  exact isPlainAscii_escapeChar d c hd

end Json

end Drydock
