/-
  Laws of lower case. What a capital sigma becomes depends on its neighbours, so the lower case of a
  text is that of its parts only where no such neighbours meet (`lower_append`), or without a capital
  sigma. Of the characters beyond ASCII just two become ASCII letters, so a word without these
  letters is the lower case of itself in small or capital letters only (`lower_eq_iff_of_ascii`).
-/
import Drydock.Text.Case
import Mathlib.Logic.Basic

namespace Drydock.Text

/-! ## Single characters -/

theorem toNat_shifted {c : Char} {distance : Int} {n : Nat} (h : (c.toNat : Int) + distance = n)
    (hn : n < 0xD800 ∨ 0xDFFF < n ∧ n < 0x110000) : (shifted c distance).toNat = n := by
  have hnumber : Int.toNat (c.toNat + distance) = n := by omega
  have hvalid : n.isValidChar := hn
  rw [shifted, hnumber, Char.ofNat, dif_pos hvalid]
  rfl

/-- The tables lead from characters beyond ASCII to such characters, but for the Kelvin sign. -/
theorem eq_of_ascii_shifted {c : Char} {first last step : Nat} {distance : Int}
    (hrun : (first, last, step, distance) ∈ lowerRuns) (hfirst : first ≤ c.toNat)
    (hlast : c.toNat ≤ last) (h : (shifted c distance).toNat < 128) :
    shifted c distance = 'k' := by
  have hall : ∀ run ∈ lowerRuns,
      ((run.2.1 : Int) + run.2.2.2 < 0xD800 ∨
        0xDFFF < (run.1 : Int) + run.2.2.2 ∧ (run.2.1 : Int) + run.2.2.2 < 0x110000) ∧
      (128 ≤ (run.1 : Int) + run.2.2.2 ∨ run = (0x212A, 0x212A, 1, -8383)) := by
    decide +kernel
  obtain ⟨hvalid, hlarge | hkelvin⟩ := hall _ hrun
  · dsimp only at hvalid hlarge
    obtain ⟨n, hn⟩ := Int.eq_ofNat_of_zero_le (a := c.toNat + distance) (by omega)
    have hnumber := toNat_shifted hn (by omega)
    omega
  · simp only [Prod.mk.injEq] at hkelvin
    obtain ⟨rfl, rfl, -, rfl⟩ := hkelvin
    rw [shifted, Nat.le_antisymm hlast hfirst]
    rfl

/-- Beyond ASCII, just two characters have a lower case with an ASCII letter in it: the capital i
with a dot and the Kelvin sign. -/
theorem eq_of_ascii_mem_otherCase {c d : Char} (hc : 128 ≤ c.toNat) (hd : d.toNat < 128)
    (h : d ∈ otherCase lowerRuns lowerSequences c) : d = 'i' ∨ d = 'k' := by
  unfold otherCase at h
  split at h
  · rename_i sequence hsequence
    have hall : ∀ e ∈ lowerSequences, ∀ n ∈ e.2, (Char.ofNat n).toNat < 128 →
        Char.ofNat n = 'i' := by
      decide
    obtain ⟨front, back, hmem, -⟩ := List.lookup_eq_some_iff.mp hsequence
    obtain ⟨n, hn, rfl⟩ := List.mem_map.mp h
    exact Or.inl (hall (c.toNat, sequence) (by simp [hmem]) n hn hd)
  · split at h
    · rename_i distance hdistance
      obtain ⟨⟨first, last, step, distance⟩, hrun, rfl⟩ := Option.map_eq_some_iff.mp hdistance
      have hin := List.find?_some hrun
      simp only [Bool.and_eq_true, decide_eq_true_eq] at hin
      have hshifted : d = shifted c distance := List.mem_singleton.mp h
      rw [hshifted] at hd ⊢
      exact Or.inr (eq_of_ascii_shifted (List.mem_of_find?_eq_some hrun) hin.1.1 hin.1.2 hd)
    · obtain rfl := List.mem_singleton.mp h
      omega

/-- An ASCII character in a lower case stems from its own letter, or is one of two letters. -/
theorem ascii_of_mem_lowerChar {c d : Char} (hd : d.toNat < 128) (h : d ∈ lowerChar c) :
    c.toNat < 128 ∧ d = c.toLower ∨ d = 'i' ∨ d = 'k' := by
  unfold lowerChar at h
  split at h
  · rename_i hc
    exact Or.inl ⟨hc, List.mem_singleton.mp h⟩
  · rename_i hc
    exact Or.inr (eq_of_ascii_mem_otherCase (Nat.le_of_not_lt hc) hd h)

theorem lowerChar_of_ascii {c : Char} (h : c.toNat < 128) : lowerChar c = [c.toLower] := if_pos h

theorem otherCase_ne_nil {runs : List CaseRun} {sequences : List (Nat × List Nat)}
    (h : ∀ e ∈ sequences, e.2 ≠ []) (c : Char) : otherCase runs sequences c ≠ [] := by
  unfold otherCase
  split
  · rename_i sequence hsequence
    obtain ⟨front, back, hmem, -⟩ := List.lookup_eq_some_iff.mp hsequence
    have hne := h (c.toNat, sequence) (by simp [hmem])
    simpa using hne
  · split <;> exact List.cons_ne_nil _ _

theorem lowerChar_ne_nil (c : Char) : lowerChar c ≠ [] := by
  unfold lowerChar
  split
  · exact List.cons_ne_nil _ _
  · exact otherCase_ne_nil (by decide) c

theorem not_ascii_lowerSigma (before after : Text) : 128 ≤ (lowerSigma before after).toNat := by
  unfold lowerSigma
  split <;> decide

/-! ## Parts of texts -/

theorem meetsCased_cons_congr {t u : Text} (h : meetsCased t = meetsCased u) (c : Char) :
    meetsCased (c :: t) = meetsCased (c :: u) := by
  unfold meetsCased at h ⊢
  rw [List.dropWhile_cons, List.dropWhile_cons]
  by_cases hc : caseIgnorableRanges.contains c.toNat = true
  · rw [if_pos hc, if_pos hc]
    exact h
  · rw [if_neg hc, if_neg hc]

/-- What stands before a text matters only to capital sigmas, and to them only as far as a letter
with a case is met. -/
theorem lowerFrom_congr {before before' : Text} (h : meetsCased before = meetsCased before')
    (t : Text) : lowerFrom before t = lowerFrom before' t := by
  induction t generalizing before before' with
  | nil => rfl
  | cons c t ih =>
    rw [lowerFrom, lowerFrom, ih (meetsCased_cons_congr h c), lowerSigma, lowerSigma, h]

theorem lowerFrom_append {s : Text} (h : capitalSigma ∉ s) (before t : Text) :
    lowerFrom before (s ++ t) = s.flatMap lowerChar ++ lowerFrom (s.reverse ++ before) t := by
  induction s generalizing before with
  | nil => rfl
  | cons c s ih =>
    rw [List.mem_cons, not_or] at h
    rw [List.cons_append, lowerFrom, if_neg (Ne.symm h.1), ih h.2, List.flatMap_cons,
      List.reverse_cons, List.append_assoc, List.append_assoc]
    rfl

theorem lower_eq_flatMap {t : Text} (h : capitalSigma ∉ t) : lower t = t.flatMap lowerChar :=
  lowerFrom_eq_flatMap h []

/-- Lower case is taken part by part where the first part has no capital sigma and ends in a
character that has no case and is not passed over. -/
theorem lower_append {s : Text} (h : capitalSigma ∉ s) (hend : meetsCased s.reverse = false)
    (t : Text) : lower (s ++ t) = lower s ++ lower t := by
  have hmeets : meetsCased (s.reverse ++ []) = meetsCased [] := by
    rw [List.append_nil, hend]
    rfl
  rw [lower, lowerFrom_append h, lowerFrom_congr hmeets, lower_eq_flatMap h, lower]

/-- The length of a lower case does not depend on what stands around a capital sigma. -/
theorem length_lowerFrom (before t : Text) :
    (lowerFrom before t).length = (t.flatMap lowerChar).length := by
  induction t generalizing before with
  | nil => rfl
  | cons c t ih =>
    rw [lowerFrom, List.flatMap_cons, List.length_append, List.length_append, ih]
    split
    · rename_i hc
      rw [hc]
      rfl
    · rfl

theorem length_lower_append (s t : Text) :
    (lower (s ++ t)).length = (lower s).length + (lower t).length := by
  rw [lower, lower, lower, length_lowerFrom, length_lowerFrom, length_lowerFrom,
    List.flatMap_append, List.length_append]

/-! ## ASCII characters -/

/-- An ASCII character in a lower case stems from the text, if it is no letter. -/
theorem ascii_of_mem_lowerFrom {before t : Text} {d : Char} (hd : d.toNat < 128)
    (h : d ∈ lowerFrom before t) :
    (∃ c ∈ t, c.toNat < 128 ∧ d = c.toLower) ∨ d = 'i' ∨ d = 'k' := by
  induction t generalizing before with
  | nil => exact absurd h List.not_mem_nil
  | cons c t ih =>
    rw [lowerFrom, List.mem_append] at h
    rcases h with h | h
    · split at h
      · have hsigma := not_ascii_lowerSigma before t
        rw [← List.mem_singleton.mp h] at hsigma
        omega
      · rcases ascii_of_mem_lowerChar hd h with hc | hletter
        · exact Or.inl ⟨c, List.mem_cons_self, hc⟩
        · exact Or.inr hletter
    · rcases ih h with ⟨c, hc, hlower⟩ | hletter
      · exact Or.inl ⟨c, List.mem_cons_of_mem _ hc, hlower⟩
      · exact Or.inr hletter

/-- A sign that is no letter is in a lower case only if it is in the text. -/
theorem mem_of_mem_lower {t : Text} {d : Char} (hd : d.toNat < 128)
    (hletter : ¬('a' ≤ d ∧ d ≤ 'z')) (h : d ∈ lower t) : d ∈ t := by
  have hall : ∀ n < 128, let c := Char.ofNat n
      c.toLower = c ∨ 'a' ≤ c.toLower ∧ c.toLower ≤ 'z' := by decide
  rcases ascii_of_mem_lowerFrom hd h with ⟨c, hc, hascii, rfl⟩ | rfl | rfl
  · have hcase := hall c.toNat hascii
    rw [Char.ofNat_toNat] at hcase
    exact (hcase.resolve_right hletter).symm ▸ hc
  · exact absurd (by decide) hletter
  · exact absurd (by decide) hletter

theorem ascii_of_toLower {c : Char} (h : c.toLower.toNat < 128) : c.toNat < 128 := by
  unfold Char.toLower at h
  split at h
  · rename_i hupper
    have hbound : c.toNat ≤ 90 := hupper.2
    omega
  · exact h

theorem lower_of_ascii {t : Text} (h : ∀ c ∈ t, c.toNat < 128) : lower t = t.map Char.toLower := by
  have hsigma : capitalSigma ∉ t := fun hmem => absurd (h _ hmem) (by decide)
  rw [lower_eq_flatMap hsigma]
  induction t with
  | nil => rfl
  | cons c t ih =>
    obtain ⟨hc, ht⟩ := List.forall_mem_cons.mp h
    rw [List.flatMap_cons, lowerChar_of_ascii hc, ih ht fun hmem => hsigma (.tail _ hmem)]
    rfl

/-- Each character of a text leaves something in its lower case. -/
theorem exists_mem_lowerFrom {c : Char} {t : Text} (h : c ∈ t) (before : Text) :
    ∃ d ∈ lowerFrom before t, d ∈ lowerChar c ∨ 128 ≤ d.toNat := by
  induction t generalizing before with
  | nil => exact absurd h List.not_mem_nil
  | cons first t ih =>
    rw [lowerFrom]
    rcases List.mem_cons.mp h with rfl | h
    · split
      · exact ⟨lowerSigma before t, by simp, Or.inr (not_ascii_lowerSigma before t)⟩
      · obtain ⟨d, hd⟩ := List.exists_mem_of_ne_nil _ (lowerChar_ne_nil c)
        exact ⟨d, List.mem_append_left _ hd, Or.inl hd⟩
    · obtain ⟨d, hd, hfrom⟩ := ih h (first :: before)
      exact ⟨d, List.mem_append_right _ hd, hfrom⟩

/-- A word of ASCII characters without i and k is the lower case of texts that spell it in small and
capital ASCII letters, and of no others. -/
theorem lower_eq_iff_of_ascii {word : Text}
    (hword : ∀ d ∈ word, d.toNat < 128 ∧ d ≠ 'i' ∧ d ≠ 'k') (t : Text) :
    lower t = word ↔ t.map Char.toLower = word := by
  have hascii (h : lower t = word) : ∀ c ∈ t, c.toNat < 128 := by
    intro c hc
    obtain ⟨d, hd, hfrom⟩ := exists_mem_lowerFrom hc []
    obtain ⟨hsmall, hi, hk⟩ := hword d (h ▸ hd)
    have hstems := ascii_of_mem_lowerChar hsmall (hfrom.resolve_right (Nat.not_le.mpr hsmall))
    exact (hstems.resolve_right (not_or.mpr ⟨hi, hk⟩)).1
  constructor
  · intro h
    rw [← lower_of_ascii (hascii h), h]
  · intro h
    rw [lower_of_ascii fun c hc => ?_, h]
    exact ascii_of_toLower (hword _ (h ▸ List.mem_map_of_mem hc)).1

end Drydock.Text
