/-
  Integers that are too long. What a reader hands on stands at the end of what it was given, and a
  row of digits on which it gives up stands there somewhere (`StaysWithin`), one lemma for each
  reader. So a document without a row of digits that is too long is read or has a fault
  (`exists_row_of_read`); and an array that begins with such a row is not read (`load_row`).
-/
import Drydock.Proofs.Json.TextArray

namespace Drydock.Json

open Text (isAsciiDigit)

/-- A text holds a row of so many decimal digits. -/
def HasRow (t : Text) (count : Nat) : Prop :=
  ∃ row, row <:+: t ∧ row.length = count ∧ ∀ c ∈ row, isAsciiDigit c = true

/-- A reader that was given a text has handed on its end, or has found a fault, or has given up on a
row of digits that is in the text and longer than allowed. -/
def StaysWithin {α : Type} (most : Option Nat) (t : Text) : Except ReadError (α × Text) → Prop
  | .ok (_, rest) => rest <:+ t
  | .error .malformed => True
  | .error (.tooManyDigits count) => (∃ bound ∈ most, bound < count) ∧ HasRow t count

section StaysWithin

variable {α β : Type} {most : Option Nat} {t u : Text} {result : Except ReadError (α × Text)}

theorem StaysWithin.mono (h : StaysWithin most u result) (hu : u <:+ t) :
    StaysWithin most t result := by
  match result, h with
  | .ok (_, rest), h => exact List.IsSuffix.trans h hu
  | .error .malformed, _ => exact trivial
  | .error (.tooManyDigits count), ⟨hbound, row, hrow, hlength, hdigits⟩ =>
    exact ⟨hbound, row, hrow.trans hu.isInfix, hlength, hdigits⟩

theorem StaysWithin.map (h : StaysWithin most t result) (f : α → β) :
    StaysWithin most t (result.map fun (a, rest) => (f a, rest)) := by
  match result, h with
  | .ok (_, rest), h => exact h
  | .error .malformed, _ => exact trivial
  | .error (.tooManyDigits count), h => exact h

theorem staysWithin_expected {o : Option (α × Text)} (h : ∀ a rest, o = some (a, rest) → rest <:+ t) :
    StaysWithin most t (expected o) := by
  cases o with
  | none => exact trivial
  | some result => exact h result.1 result.2 rfl

end StaysWithin

/-! ## Strings and numbers -/

theorem skipBlanks_isSuffix (t : Text) : skipBlanks t <:+ t := List.dropWhile_suffix _

theorem readString_isSuffix {t u rest : Text} (h : readString t = some (u, rest)) : rest <:+ t := by
  obtain ⟨s, -, rfl⟩ := exists_inside_of_readString h
  exact (List.suffix_cons '"' rest).trans (List.suffix_append s _)

theorem readWhole_eq {t rest : Text} {whole : List Nat} (h : readWhole t = some (whole, rest)) :
    ∃ row, t = row ++ rest ∧ row.length = whole.length ∧ ∀ c ∈ row, isAsciiDigit c = true := by
  unfold readWhole at h
  split at h
  · obtain ⟨rfl, rfl⟩ := Prod.mk.inj (Option.some.inj h)
    refine ⟨['0'], rfl, rfl, fun c hc => ?_⟩
    obtain rfl := List.mem_singleton.mp hc
    rfl
  · unfold readDigits at h
    dsimp only at h
    split at h
    · exact absurd h (by simp)
    · obtain ⟨rfl, rfl⟩ := Prod.mk.inj (Option.some.inj h)
      exact ⟨t.takeWhile isAsciiDigit, List.takeWhile_append_dropWhile.symm,
        (List.length_map _).symm, fun c hc => List.mem_takeWhile_imp hc⟩

theorem readDigits_isSuffix (t : Text) : (readDigits t).2 <:+ t := List.dropWhile_suffix _

theorem readFraction_isSuffix {t rest : Text} {places : List Nat}
    (h : readFraction t = some (places, rest)) : rest <:+ t := by
  unfold readFraction at h
  split at h
  · next behind =>
    obtain ⟨-, heq⟩ := Option.ite_none_left_eq_some.mp h
    obtain ⟨-, rfl⟩ := Prod.mk.inj (Option.some.inj heq)
    exact (readDigits_isSuffix behind).trans (List.suffix_cons _ _)
  · exact absurd h (by simp)

theorem readExponent_isSuffix {t rest : Text} {power : Int}
    (h : readExponent t = some (power, rest)) : rest <:+ t := by
  unfold readExponent at h
  split at h
  · next c behind =>
    split at h
    · dsimp only at h
      -- A sign may stand before the digits.
      split at h <;> obtain ⟨-, heq⟩ := Option.ite_none_left_eq_some.mp h <;>
        obtain ⟨-, rfl⟩ := Prod.mk.inj (Option.some.inj heq)
      · next u =>
        exact (readDigits_isSuffix u).trans ((List.suffix_cons _ u).trans (List.suffix_cons _ _))
      · next u =>
        exact (readDigits_isSuffix u).trans ((List.suffix_cons _ u).trans (List.suffix_cons _ _))
      · exact (readDigits_isSuffix behind).trans (List.suffix_cons _ behind)
    · exact absurd h (by simp)
  · exact absurd h (by simp)

section Readers

variable (most : Option Nat)

/-- Only an integer may be too long: its digits stand at the very front. -/
theorem staysWithin_readUnsigned (negative : Bool) (t : Text) :
    StaysWithin most t (readUnsigned most negative t) := by
  unfold readUnsigned
  split
  · exact trivial
  · next whole rest hwhole =>
    obtain ⟨row, rfl, hlength, hdigits⟩ := readWhole_eq hwhole
    have hfraction : (readFraction rest).elim rest Prod.snd <:+ row ++ rest := by
      cases h : readFraction rest with
      | none => exact List.suffix_append row rest
      | some found => exact (readFraction_isSuffix h).trans (List.suffix_append row rest)
    dsimp only
    generalize (readFraction rest).elim rest Prod.snd = behind at hfraction ⊢
    have hexponent : (readExponent behind).elim behind Prod.snd <:+ row ++ rest := by
      cases h : readExponent behind with
      | none => exact hfraction
      | some found => exact (readExponent_isSuffix h).trans hfraction
    split
    · by_cases hlong : ∃ bound ∈ most, bound < whole.length
      · obtain ⟨bound, hbound, hlt⟩ := hlong
        rw [Number.ofDigits_of_lt hbound hlt]
        exact ⟨⟨bound, hbound, hlt⟩, row, (List.prefix_append row rest).isInfix, hlength, hdigits⟩
      · rw [Number.ofDigits_of_le fun bound hbound =>
          Nat.le_of_not_lt fun hlt => hlong ⟨bound, hbound, hlt⟩]
        exact hexponent
    · exact hexponent

theorem staysWithin_readScalar (t : Text) : StaysWithin most t (readScalar most t) := by
  unfold readScalar
  split
  · next result hname =>
    obtain ⟨⟨name, v⟩, -, hdrop⟩ := List.exists_of_findSome?_eq_some hname
    obtain ⟨rest, hrest, rfl⟩ := Option.map_eq_some_iff.mp hdrop
    obtain rfl := Text.dropFront?_eq_some_iff.mp hrest
    exact List.suffix_append name rest
  · split
    · exact (staysWithin_readUnsigned most true _).mono (List.suffix_cons _ _)
    · exact staysWithin_readUnsigned most false t

/-! ## Values -/

/-- With so much fuel, each of the three readers of values stays within its text. -/
structure ReadersStayWithin (fuel : Nat) : Prop where
  value : ∀ t, StaysWithin most t (readValue most fuel t)
  items : ∀ t, StaysWithin most t (readItems most fuel t)
  members : ∀ table t, StaysWithin most t (readMembers most fuel table t)

variable {most} {fuel : Nat}

theorem ReadersStayWithin.readValue_succ (h : ReadersStayWithin most fuel) (t : Text) :
    StaysWithin most t (readValue most (fuel + 1) t) := by
  unfold readValue
  split
  · next u =>
    have hread : StaysWithin most u (expected (readString u)) :=
      staysWithin_expected fun _ _ hread => readString_isSuffix hread
    exact (hread.map _).mono (List.suffix_cons _ u)
  · next u =>
    have hskip : skipBlanks u <:+ '[' :: u :=
      (skipBlanks_isSuffix u).trans (List.suffix_cons _ u)
    split
    · next rest hclose => exact (List.suffix_cons ']' rest).trans (hclose ▸ hskip)
    · exact ((h.items _).map _).mono hskip
  · next u =>
    have hskip : skipBlanks u <:+ '\x7b' :: u :=
      (skipBlanks_isSuffix u).trans (List.suffix_cons _ u)
    split
    · next rest hclose => exact (List.suffix_cons '\x7d' rest).trans (hclose ▸ hskip)
    · exact ((h.members [] _).map _).mono hskip
  · exact staysWithin_readScalar most t

theorem ReadersStayWithin.readItems_succ (h : ReadersStayWithin most fuel) (t : Text) :
    StaysWithin most t (readItems most (fuel + 1) t) := by
  have hvalue := h.value t
  unfold readItems
  split
  · next e hread =>
    rw [hread] at hvalue
    cases e <;> exact hvalue
  · next item behind hread =>
    rw [hread] at hvalue
    have hskip : skipBlanks behind <:+ t := (skipBlanks_isSuffix behind).trans hvalue
    split
    · next rest hclose => exact (List.suffix_cons ']' rest).trans (hclose ▸ hskip)
    · next u hcomma =>
      have hu : skipBlanks u <:+ t :=
        (skipBlanks_isSuffix u).trans ((List.suffix_cons ',' u).trans (hcomma ▸ hskip))
      exact ((h.items _).map _).mono hu
    · exact trivial

theorem ReadersStayWithin.readMembers_succ (h : ReadersStayWithin most fuel) (table : Table)
    (t : Text) : StaysWithin most t (readMembers most (fuel + 1) table t) := by
  unfold readMembers
  split
  · next u =>
    split
    · exact trivial
    · next key behind hkey =>
      have hbehind : skipBlanks behind <:+ '"' :: u :=
        (skipBlanks_isSuffix behind).trans
          ((readString_isSuffix hkey).trans (List.suffix_cons _ u))
      split
      · next v hcolon =>
        have hv : skipBlanks v <:+ '"' :: u :=
          (skipBlanks_isSuffix v).trans ((List.suffix_cons ':' v).trans (hcolon ▸ hbehind))
        have hvalue := (h.value (skipBlanks v)).mono hv
        split
        · next e hread =>
          rw [hread] at hvalue
          cases e <;> exact hvalue
        · next value last hread =>
          rw [hread] at hvalue
          have hskip : skipBlanks last <:+ '"' :: u := (skipBlanks_isSuffix last).trans hvalue
          split
          · next rest hclose => exact (List.suffix_cons '\x7d' rest).trans (hclose ▸ hskip)
          · next w hcomma =>
            exact (h.members _ _).mono
              ((skipBlanks_isSuffix w).trans ((List.suffix_cons ',' w).trans (hcomma ▸ hskip)))
          · exact trivial
      · exact trivial
  · exact trivial

variable (most) in
theorem readersStayWithin (fuel : Nat) : ReadersStayWithin most fuel := by
  induction fuel with
  | zero => exact ⟨fun _ => trivial, fun _ => trivial, fun _ _ => trivial⟩
  | succ fuel ih => exact ⟨ih.readValue_succ, ih.readItems_succ, ih.readMembers_succ⟩

end Readers

/-! ## Documents -/

/-- A reader gives up only on a row of digits that is in the document and longer than allowed. -/
theorem exists_row_of_read {most : Option Nat} {t : Text} {count : Nat}
    (h : read most t = .error (.tooManyDigits count)) :
    (∃ bound ∈ most, bound < count) ∧ HasRow t count := by
  have hvalue := ((readersStayWithin most (2 * t.length + 1)).value (skipBlanks t)).mono
    (skipBlanks_isSuffix t)
  unfold read at h
  split at h
  · next e hread =>
    obtain rfl := Except.error.inj h
    rw [hread] at hvalue
    exact hvalue
  · split at h
    · exact absurd h (by simp)
    · exact absurd (Except.error.inj h) (by simp)

theorem loadTexts_eq_tooManyDigits_iff {t : Text} {count : Nat} :
    loadTexts t = .error (.tooManyDigits count) ↔ load t = .error (.tooManyDigits count) := by
  unfold loadTexts
  split
  · next items hload =>
    rw [hload]
    cases items.mapM Value.text? <;> simp [expected]
  · next v hload => simp [hload]
  · next e hload => rw [hload, Except.error.injEq, Except.error.injEq]

/-! ## Rows that are too long -/

/-- A row of digits that is an integer longer than allowed. -/
structure IsLongRow (bound : Nat) (row : Text) : Prop where
  long : bound < row.length
  digits : ∀ c ∈ row, isAsciiDigit c = true
  first : row.head? ≠ some '0'

/-- What may stand behind an integer: it goes on neither with digits nor as a float. -/
structure EndsInteger (rest : Text) : Prop where
  digit : ∀ c ∈ rest.head?, isAsciiDigit c = false
  fraction : readFraction rest = none
  exponent : readExponent rest = none

theorem endsInteger_space_cons (t : Text) : EndsInteger (' ' :: t) where
  digit c hc := by
    obtain rfl := Option.some.inj hc
    rfl
  fraction := rfl
  exponent := rfl

section Row

variable {most : Option Nat} {bound : Nat} {row rest : Text}

theorem IsLongRow.exists_eq (h : IsLongRow bound row) :
    ∃ c t, row = c :: t ∧ isAsciiDigit c = true := by
  have hne : row ≠ [] := by
    rintro rfl
    exact absurd h.long (Nat.not_lt_zero bound)
  obtain ⟨c, t, rfl⟩ := List.exists_cons_of_ne_nil hne
  exact ⟨c, t, rfl, h.digits c List.mem_cons_self⟩

theorem readUnsigned_row (h : IsLongRow bound row) (hbound : bound ∈ most) (negative : Bool)
    (hrest : EndsInteger rest) :
    readUnsigned most negative (row ++ rest) = .error (.tooManyDigits row.length) := by
  obtain ⟨c, t, hrow, -⟩ := h.exists_eq
  have hne : row ≠ [] := hrow ▸ List.cons_ne_nil c t
  have hlength : (row.map fun c => c.toNat - 48).length = row.length := List.length_map _
  have hlong : bound < (row.map fun c => c.toNat - 48).length := hlength ▸ h.long
  simp only [readUnsigned, readWhole_append hne h.first h.digits hrest.digit, hrest.fraction,
    hrest.exponent, Option.elim_none, Number.ofDigits_of_lt hbound hlong, hlength]
  rfl

theorem readScalar_row (h : IsLongRow bound row) (hbound : bound ∈ most)
    (hrest : EndsInteger rest) :
    readScalar most (row ++ rest) = .error (.tooManyDigits row.length) := by
  have hread := readUnsigned_row h hbound false hrest
  obtain ⟨c, t, rfl, hc⟩ := h.exists_eq
  have hname := no_name_of_digit hc (.inl rfl) (t ++ rest)
  rw [List.nil_append] at hname
  rw [List.cons_append] at hread ⊢
  rw [readScalar, hname]
  · exact hread
  · rintro _ heq
    rw [(List.cons.inj heq).1] at hc
    exact absurd hc (by decide)

/-- An array is not read if its first item is too long. -/
theorem load_row (h : IsLongRow Number.mostDigits row) (hrest : EndsInteger rest) :
    load ('[' :: (row ++ rest)) = .error (.tooManyDigits row.length) := by
  have hread : readScalar (some Number.mostDigits) (row ++ rest) =
      .error (.tooManyDigits row.length) := readScalar_row h rfl hrest
  obtain ⟨c, t, rfl, hc⟩ := h.exists_eq
  have hother {d : Char} (hd : isAsciiDigit d = false) : c ≠ d := by
    rintro rfl
    exact absurd hc (by simp [hd])
  have hblank : isBlank c = false := by
    simp [isBlank, hother (d := ' ') (by decide), hother (d := '\t') (by decide),
      hother (d := '\n') (by decide), hother (d := '\r') (by decide)]
  rw [List.cons_append] at hread ⊢
  have hvalue (fuel : Nat) : readValue (some Number.mostDigits) (fuel + 1) (c :: (t ++ rest)) =
      .error (.tooManyDigits (c :: t).length) :=
    (readValue_of_scalar (hother (by decide)) (hother (by decide)) (hother (by decide)) fuel _).trans
      hread
  have hitems (fuel : Nat) : readItems (some Number.mostDigits) (fuel + 2) (c :: (t ++ rest)) =
      .error (.tooManyDigits (c :: t).length) := by
    rw [readItems, hvalue]
  have harray (fuel : Nat) :
      readValue (some Number.mostDigits) (fuel + 3) ('[' :: c :: (t ++ rest)) =
        .error (.tooManyDigits (c :: t).length) := by
    rw [readValue, skipBlanks_of_not_blank hblank]
    split
    · next heq => exact absurd (List.cons.inj heq).1 (hother (by decide))
    · rw [hitems]
      rfl
  have hfuel : 2 * ('[' :: c :: (t ++ rest)).length + 1 = 2 * (t ++ rest).length + 2 + 3 := by
    simp only [List.length_cons]
    omega
  rw [load, read, skipBlanks_of_not_blank (by decide), hfuel, harray]

end Row

end Drydock.Json
