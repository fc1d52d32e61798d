/-
  Decimal digits of natural numbers: they are ASCII digits, they denote the number that they were
  written from, so two numbers have different digits, and only zero begins with a zero.
-/
import Drydock.Text.Alphabetic
import Drydock.Text.Blank
import Drydock.Text.Digit
import Mathlib.Data.List.Basic

namespace Drydock.Text

theorem isAsciiDigit_of_mem_ofNat {n : Nat} {c : Char} (h : c ∈ ofNat n) : isAsciiDigit c = true :=
  Nat.isDigit_of_mem_toDigits (by decide) (by decide) h

theorem isBlank_of_isAsciiDigit {c : Char} (h : isAsciiDigit c = true) : isBlank c = false := by
  obtain ⟨hlow, hhigh⟩ := Char.isDigit_iff_toNat.mp h
  have hlow : 48 ≤ c.toNat := hlow
  have hhigh : c.toNat ≤ 57 := hhigh
  unfold isBlank
  simp
  omega

theorem ofNat_ne_nil (n : Nat) : ofNat n ≠ [] := Nat.toDigits_ne_nil

theorem digitsToNat_ofNat (n : Nat) :
    digitsToNat 10 ((ofNat n).map fun c => c.toNat - 48) = n := by
  rw [digitsToNat, List.foldl_map]
  exact Nat.ofDigitChars_ten_toDigits

theorem ofNat_injective : Function.Injective ofNat := fun m n h => by
  rw [← digitsToNat_ofNat m, h, digitsToNat_ofNat]

/-- The digits at the end of a text are told by the last space. -/
theorem append_ofNat_inj {t u : Text} {m n : Nat} (h : t ++ ' ' :: ofNat m = u ++ ' ' :: ofNat n) :
    t = u ∧ m = n := by
  have hspace (n : Nat) : ' ' ∉ (ofNat n).reverse := fun hmem =>
    absurd (isAsciiDigit_of_mem_ofNat (List.mem_reverse.mp hmem)) (by decide)
  have hcut (t : Text) (n : Nat) :
      cut ' ' (t ++ ' ' :: ofNat n).reverse = ((ofNat n).reverse, some t.reverse) := by
    rw [List.reverse_append, List.reverse_cons, List.append_assoc, List.singleton_append]
    exact cut_append_of_not_mem (hspace n) _
  have hparts := (hcut t m).symm.trans (h ▸ hcut u n)
  obtain ⟨hdigits, hfront⟩ := Prod.mk.inj hparts
  exact ⟨List.reverse_injective (Option.some.inj hfront),
    ofNat_injective (List.reverse_injective hdigits)⟩

theorem head?_ofNat_of_pos {n : Nat} (h : 0 < n) : (ofNat n).head? ≠ some '0' := by
  induction n using Nat.strongRecOn with
  | ind n ih =>
    unfold ofNat
    by_cases hsmall : n < 10
    · rw [Nat.toDigits_of_lt_base hsmall]
      intro hzero
      rw [List.head?_cons, Option.some.injEq, Nat.digitChar_eq_zero] at hzero
      omega
    · have hfront := ih (n / 10) (by omega) (by omega)
      rw [Nat.toDigits_of_base_le (by decide) (by omega),
        List.head?_append_of_ne_nil _ Nat.toDigits_ne_nil]
      exact hfront

end Drydock.Text
