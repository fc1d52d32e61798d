/-
  Reading what is written as JSON. A written value is read off the front of any text that does not
  go on with it (`Reads`): strings at once, integers if they have no more digits than are allowed,
  arrays and objects when their parts are. So a document is read as the value that it was written
  from (`read_of_reads`), and an array of strings as the texts in it (`loadTexts_render`).
-/
import Drydock.Proofs.Json.Strings
import Drydock.Proofs.Text.Number
import Mathlib.Data.List.Forall2

namespace Drydock.Json

open Text (isAsciiDigit digitsToNat)

/-! ## Blanks and marks -/

theorem skipBlanks_of_not_blank {c : Char} (h : isBlank c = false) (t : Text) :
    skipBlanks (c :: t) = c :: t :=
  List.dropWhile_cons_of_neg (by simp [h])

/-- A text that goes on behind a value with a comma, a bracket or a brace, if it goes on at all. -/
def Follows (t : Text) : Prop := ∀ c ∈ t.head?, c = ',' ∨ c = ']' ∨ c = '\x7d'

theorem follows_nil : Follows [] := fun _ hc => absurd hc (by simp)

theorem follows_cons {c : Char} (h : c = ',' ∨ c = ']' ∨ c = '\x7d') (t : Text) :
    Follows (c :: t) := by
  intro d hd
  obtain rfl := Option.some.inj hd
  exact h

/-- A document that begins neither with a blank nor with the bracket that ends an array. -/
def IsOpening (document : Text) : Prop :=
  ∃ c t, document = c :: t ∧ isBlank c = false ∧ c ≠ ']'

section Opening

variable {document : Text}

theorem IsOpening.append (h : IsOpening document) (rest : Text) : IsOpening (document ++ rest) := by
  obtain ⟨c, t, rfl, hc⟩ := h
  exact ⟨c, t ++ rest, rfl, hc⟩

theorem IsOpening.skipBlanks (h : IsOpening document) : skipBlanks document = document := by
  obtain ⟨c, t, rfl, hc, -⟩ := h
  exact skipBlanks_of_not_blank hc t

theorem IsOpening.joinWith (h : IsOpening document) (separator : Text) (documents : List Text) :
    IsOpening (Text.joinWith separator (document :: documents)) := by
  cases documents with
  | nil => exact h
  | cons next documents =>
    rw [Text.joinWith_cons_cons, List.append_assoc]
    exact h.append _

end Opening

/-- A document is read as a value, whatever follows it; its length is fuel enough. -/
structure Reads (most : Option Nat) (document : Text) (v : Value) : Prop where
  opening : IsOpening document
  reads : ∀ fuel, document.length ≤ fuel → ∀ rest, Follows rest →
    readValue most fuel (document ++ rest) = .ok (v, rest)

theorem IsOpening.exists_fuel {document : Text} (h : IsOpening document) {fuel : Nat}
    (hle : document.length ≤ fuel) : ∃ less, fuel = less + 1 := by
  obtain ⟨c, t, rfl, -⟩ := h
  rw [List.length_cons] at hle
  exact ⟨fuel - 1, by omega⟩

variable {most : Option Nat}

/-! ## Strings and integers -/

theorem reads_string (t : Text) : Reads most (string t) (.text t) := by
  have hopening : IsOpening (string t) := ⟨'"', _, rfl, by decide, by decide⟩
  refine ⟨hopening, fun fuel hfuel rest _ => ?_⟩
  obtain ⟨less, rfl⟩ := hopening.exists_fuel hfuel
  have hwritten : string t ++ rest = '"' :: (t.flatMap escapeChar ++ '"' :: rest) := by
    simp [string]
  rw [hwritten, readValue, readString_string]
  rfl

section Digits

variable {rest : Text}

theorem Follows.not_digit (h : Follows rest) : ∀ c ∈ rest.head?, isAsciiDigit c = false := by
  intro c hc
  rcases h c hc with rfl | rfl | rfl <;> decide

/-- A row of digits is read, and nothing of what follows it. -/
theorem readDigits_append {row : Text} (hrow : ∀ c ∈ row, isAsciiDigit c = true)
    (hrest : ∀ c ∈ rest.head?, isAsciiDigit c = false) :
    readDigits (row ++ rest) = (row.map fun c => c.toNat - 48, rest) := by
  have hstop : rest.takeWhile isAsciiDigit = [] ∧ rest.dropWhile isAsciiDigit = rest := by
    cases rest with
    | nil => exact ⟨rfl, rfl⟩
    | cons c rest =>
      have hc := hrest c rfl
      exact ⟨List.takeWhile_cons_of_neg (by simp [hc]), List.dropWhile_cons_of_neg (by simp [hc])⟩
  rw [readDigits, List.takeWhile_append_of_pos hrow, List.dropWhile_append_of_pos hrow,
    hstop.1, hstop.2, List.append_nil]

theorem readWhole_append {row : Text} (hne : row ≠ []) (hzero : row.head? ≠ some '0')
    (hrow : ∀ c ∈ row, isAsciiDigit c = true)
    (hrest : ∀ c ∈ rest.head?, isAsciiDigit c = false) :
    readWhole (row ++ rest) = some (row.map fun c => c.toNat - 48, rest) := by
  have hempty : (row.map fun c => c.toNat - 48).isEmpty = false := by simp [hne]
  unfold readWhole
  split
  · next other heq =>
    have hhead := congrArg List.head? heq
    rw [List.head?_append_of_ne_nil _ hne] at hhead
    exact absurd hhead hzero
  · rw [readDigits_append hrow hrest]
    dsimp only
    rw [hempty]
    rfl

theorem readWhole_ofNat (n : Nat) (h : Follows rest) :
    ∃ digits, readWhole (Text.ofNat n ++ rest) = some (digits, rest) ∧
      digits.length = (Text.ofNat n).length ∧ digitsToNat 10 digits = n := by
  rcases Nat.eq_zero_or_pos n with rfl | hpos
  · exact ⟨[0], rfl, rfl, rfl⟩
  · -- Only zero begins with a zero.
    exact ⟨_, readWhole_append (Text.ofNat_ne_nil n) (Text.head?_ofNat_of_pos hpos)
      (fun c hc => Text.isAsciiDigit_of_mem_ofNat hc) h.not_digit, List.length_map _,
      Text.digitsToNat_ofNat n⟩

/-- An integer of `n` has no more digits than are allowed. -/
def IsAllowed (most : Option Nat) (n : Nat) : Prop := ∀ bound ∈ most, (Text.ofNat n).length ≤ bound

theorem isAllowed_none (n : Nat) : IsAllowed none n := fun _ h => absurd h (by simp)

theorem ofDigits_of_isAllowed {n : Nat} (h : IsAllowed most n) {digits : List Nat}
    (hlength : digits.length = (Text.ofNat n).length) (hdigits : digitsToNat 10 digits = n) :
    Number.ofDigits most digits = .ok n := by
  rw [Number.ofDigits_of_le fun bound hbound => hlength ▸ h bound hbound, hdigits]

theorem readUnsigned_ofNat (negative : Bool) {n : Nat} (hallowed : IsAllowed most n)
    (h : Follows rest) :
    readUnsigned most negative (Text.ofNat n ++ rest) =
      .ok (.integer (if negative then -(n : Int) else n), rest) := by
  obtain ⟨digits, hread, hlength, hdigits⟩ := readWhole_ofNat n h
  have hfraction : readFraction rest = none := by
    unfold readFraction
    split
    · next other =>
      rcases h '.' rfl with heq | heq | heq <;> exact absurd heq (by decide)
    · rfl
  have hexponent : readExponent rest = none := by
    cases rest with
    | nil => rfl
    | cons c other =>
      rcases h c rfl with rfl | rfl | rfl <;> rfl
  simp only [readUnsigned, hread, hfraction, Option.elim_none, hexponent,
    ofDigits_of_isAllowed hallowed hlength hdigits]
  rfl

theorem exists_digit_of_ofNat (n : Nat) :
    ∃ c t, Text.ofNat n = c :: t ∧ isAsciiDigit c = true := by
  obtain ⟨c, t, hwritten⟩ := List.exists_cons_of_ne_nil (Text.ofNat_ne_nil n)
  exact ⟨c, t, hwritten, Text.isAsciiDigit_of_mem_ofNat (hwritten ▸ List.mem_cons_self)⟩

end Digits

/-- No name begins with a digit, be it behind a minus sign. -/
theorem no_name_of_digit {c : Char} (hc : isAsciiDigit c = true) {sign : Text}
    (hsign : sign = [] ∨ sign = ['-']) (t : Text) :
    (names.findSome? fun (name, value) =>
      (Text.dropFront? name (sign ++ c :: t)).map (value, ·)) = none := by
  have hother {d : Char} (hd : isAsciiDigit d = false) : d ≠ c := by
    rintro rfl
    exact absurd hc (by simp [hd])
  have hn : 'n' ≠ c := hother (by decide)
  have ht : 't' ≠ c := hother (by decide)
  have hf : 'f' ≠ c := hother (by decide)
  have hN : 'N' ≠ c := hother (by decide)
  have hI : 'I' ≠ c := hother (by decide)
  have hminus : '-' ≠ c := hother (by decide)
  rcases hsign with rfl | rfl <;>
    simp [names, Text.dropFront?, hn, ht, hf, hN, hI, hminus]

theorem readScalar_ofInt {n : Int} (hallowed : IsAllowed most n.natAbs) {rest : Text}
    (h : Follows rest) : readScalar most (Text.ofInt n ++ rest) = .ok (.integer n, rest) := by
  cases n with
  | ofNat n =>
    obtain ⟨c, t, hwritten, hc⟩ := exists_digit_of_ofNat n
    have hread := readUnsigned_ofNat (n := n) false hallowed h
    have hname := no_name_of_digit hc (.inl rfl) (t ++ rest)
    rw [hwritten, List.cons_append] at hread
    rw [List.nil_append] at hname
    rw [Text.ofInt, hwritten, List.cons_append, readScalar, hname]
    · exact hread
    · rintro _ heq
      rw [(List.cons.inj heq).1] at hc
      exact absurd hc (by decide)
  | negSucc n =>
    obtain ⟨c, t, hwritten, hc⟩ := exists_digit_of_ofNat (n + 1)
    have hread := readUnsigned_ofNat (n := n + 1) true hallowed h
    have hname := no_name_of_digit hc (.inr rfl) (t ++ rest)
    rw [hwritten, List.cons_append] at hread
    rw [List.singleton_append] at hname
    rw [Text.ofInt, hwritten, List.cons_append, List.cons_append, readScalar, hname]
    exact hread

theorem readValue_of_scalar {c : Char} (hquote : c ≠ '"') (hbracket : c ≠ '[') (hbrace : c ≠ '\x7b')
    (fuel : Nat) (t : Text) : readValue most (fuel + 1) (c :: t) = readScalar most (c :: t) := by
  rw [readValue]
  · exact fun _ h => hquote (List.cons.inj h).1
  · exact fun _ h => hbracket (List.cons.inj h).1
  · exact fun _ h => hbrace (List.cons.inj h).1

/-- A number begins with a digit or a minus sign. -/
theorem exists_head_of_ofInt (n : Int) :
    ∃ c t, Text.ofInt n = c :: t ∧ (isAsciiDigit c = true ∨ c = '-') := by
  cases n with
  | ofNat n =>
    obtain ⟨c, t, hwritten, hc⟩ := exists_digit_of_ofNat n
    exact ⟨c, t, hwritten, .inl hc⟩
  | negSucc n => exact ⟨'-', _, rfl, .inr rfl⟩

theorem reads_integer {n : Int} (hallowed : IsAllowed most n.natAbs) :
    Reads most (Text.ofInt n) (.integer n) := by
  obtain ⟨c, t, hwritten, hc⟩ := exists_head_of_ofInt n
  have hother {d : Char} (hd : isAsciiDigit d = false) (hminus : d ≠ '-') : c ≠ d := by
    rintro rfl
    rcases hc with hc | hc
    · exact absurd hc (by simp [hd])
    · exact hminus hc
  have hblank : isBlank c = false := by
    simp [isBlank, hother (d := ' ') (by decide) (by decide),
      hother (d := '\t') (by decide) (by decide), hother (d := '\n') (by decide) (by decide),
      hother (d := '\r') (by decide) (by decide)]
  have hopening : IsOpening (Text.ofInt n) :=
    ⟨c, t, hwritten, hblank, hother (by decide) (by decide)⟩
  refine ⟨hopening, fun fuel hfuel rest h => ?_⟩
  obtain ⟨less, rfl⟩ := hopening.exists_fuel hfuel
  have hread := readScalar_ofInt hallowed h
  rw [hwritten, List.cons_append] at hread ⊢
  rw [readValue_of_scalar (hother (by decide) (by decide)) (hother (by decide) (by decide))
    (hother (by decide) (by decide)), hread]

/-! ## Arrays -/

theorem length_joinWith_cons (t next : Text) (ts : List Text) :
    (Text.joinWith ", " (t :: next :: ts)).length =
      t.length + 2 + (Text.joinWith ", " (next :: ts)).length := by
  have hcomma : ((", " : Text)).length = 2 := rfl
  rw [Text.joinWith_cons_cons, List.length_append, List.length_append, hcomma]

theorem readItems_join {documents : List Text} {items : List Value}
    (h : List.Forall₂ (Reads most) documents items) (hne : documents ≠ []) {fuel : Nat}
    (hfuel : (Text.joinWith ", " documents).length < fuel) (rest : Text) :
    readItems most fuel (Text.joinWith ", " documents ++ ']' :: rest) = .ok (items, rest) := by
  induction h generalizing fuel with
  | nil => exact absurd rfl hne
  | @cons document item documents items hitem hitems ih =>
    obtain ⟨less, rfl⟩ : ∃ less, fuel = less + 1 := ⟨fuel - 1, by omega⟩
    cases documents with
    | nil =>
      obtain rfl := List.forall₂_nil_left_iff.mp hitems
      rw [Text.joinWith_singleton] at hfuel ⊢
      rw [readItems, hitem.reads less (by omega) _ (follows_cons (.inr (.inl rfl)) rest)]
      rfl
    | cons next documents =>
      obtain ⟨other, others, hnext, -, -⟩ := List.forall₂_cons_left_iff.mp hitems
      have hopening : IsOpening (Text.joinWith ", " (next :: documents) ++ ']' :: rest) :=
        (hnext.opening.joinWith _ _).append _
      have hmark :
          Follows (',' :: ' ' :: (Text.joinWith ", " (next :: documents) ++ ']' :: rest)) :=
        follows_cons (.inl rfl) _
      have hjoined : Text.joinWith ", " (document :: next :: documents) ++ ']' :: rest =
          document ++ ',' :: ' ' :: (Text.joinWith ", " (next :: documents) ++ ']' :: rest) := by
        simp
      rw [length_joinWith_cons] at hfuel
      rw [hjoined, readItems, hitem.reads less (by omega) _ hmark]
      change (readItems most less
          (skipBlanks (Text.joinWith ", " (next :: documents) ++ ']' :: rest))).map
        (fun r => (item :: r.1, r.2)) = .ok (item :: items, rest)
      rw [hopening.skipBlanks, ih (by simp) (by omega)]
      rfl

/-- Items are read as an array, and each of them as what it was written from. -/
theorem reads_array {documents : List Text} {items : List Value}
    (h : List.Forall₂ (Reads most) documents items) :
    Reads most (array documents) (.array items) := by
  have hopening : IsOpening (array documents) := ⟨'[', _, rfl, by decide, by decide⟩
  refine ⟨hopening, fun fuel hfuel rest _ => ?_⟩
  obtain ⟨less, rfl⟩ := hopening.exists_fuel hfuel
  have hwritten : array documents ++ rest =
      '[' :: (Text.joinWith ", " documents ++ ']' :: rest) := by simp [array]
  simp only [array, List.length_cons, List.length_append, List.length_nil] at hfuel
  rw [hwritten, readValue]
  cases h with
  | nil => rfl
  | @cons document item documents items hitem hitems =>
    have hinside : IsOpening (Text.joinWith ", " (document :: documents) ++ ']' :: rest) :=
      (hitem.opening.joinWith _ _).append _
    have hread := readItems_join (List.Forall₂.cons hitem hitems) (by simp)
      (by omega : _ < less) rest
    rw [hinside.skipBlanks]
    obtain ⟨c, t, hfirst, -, hc⟩ := hinside
    rw [hfirst] at hread ⊢
    split
    · next heq => exact absurd (List.cons.inj heq).1 hc
    · rw [hread]
      rfl

/-! ## Objects -/

theorem put_of_not_mem {key : Text} {table : Table} (h : key ∉ table.map Prod.fst) (v : Value) :
    table.put key v = table ++ [(key, v)] := by
  induction table with
  | nil => rfl
  | cons entry table ih =>
    rw [List.map_cons, List.mem_cons, not_or] at h
    rw [Table.put, if_neg (Ne.symm h.1), ih h.2, List.cons_append]

/-- A written member is the member that it was written from. -/
def ReadsMember (most : Option Nat) (written : Text × Text) (entry : Text × Value) : Prop :=
  written.1 = entry.1 ∧ Reads most written.2 entry.2

theorem isOpening_members (document : Text × Text) (documents : List (Text × Text)) (rest : Text) :
    IsOpening (Text.joinWith ", " ((document :: documents).map member) ++ '\x7d' :: rest) := by
  have hmember : IsOpening (member document) := ⟨'"', _, rfl, by decide, by decide⟩
  exact (hmember.joinWith _ _).append _

/-- What is read behind a member of an object. -/
def behindMember (most : Option Nat) (fuel : Nat) (table : Table) (t : Text) :
    Except ReadError (Table × Text) :=
  match skipBlanks t with
  | '\x7d' :: rest => .ok (table, rest)
  | ',' :: t => readMembers most fuel table (skipBlanks t)
  | _ => .error .malformed

/-- A member is read, and then what stands behind it decides. -/
theorem readMembers_member {written : Text × Text} {v : Value} (h : Reads most written.2 v)
    {fuel : Nat} (hfuel : (member written).length ≤ fuel) (table : Table) {t : Text}
    (ht : Follows t) :
    readMembers most (fuel + 1) table (member written ++ t) =
      behindMember most fuel (table.put written.1 v) t := by
  have hwritten : member written ++ t =
      '"' :: (written.1.flatMap escapeChar ++ '"' :: ':' :: ' ' :: (written.2 ++ t)) := by
    simp [member, string]
  have hlength : written.2.length ≤ (member written).length := by
    rw [member, List.length_append]
    omega
  have hblank : skipBlanks (' ' :: (written.2 ++ t)) = written.2 ++ t :=
    (h.opening.append t).skipBlanks
  rw [hwritten, readMembers, readString_string]
  simp only [skipBlanks_of_not_blank (by decide : isBlank ':' = false)]
  rw [hblank, h.reads fuel (by omega) t ht]
  rfl

theorem readMembers_join {documents : List (Text × Text)} {entries : Table}
    (h : List.Forall₂ (ReadsMember most) documents entries) (hne : documents ≠ []) {table : Table}
    (hkeys : ((table ++ entries).map Prod.fst).Nodup) {fuel : Nat}
    (hfuel : (Text.joinWith ", " (documents.map member)).length < fuel) (rest : Text) :
    readMembers most fuel table (Text.joinWith ", " (documents.map member) ++ '\x7d' :: rest) =
      .ok (table ++ entries, rest) := by
  induction h generalizing table fuel with
  | nil => exact absurd rfl hne
  | @cons document entry documents entries hentry hentries ih =>
    obtain ⟨less, rfl⟩ : ∃ less, fuel = less + 1 := ⟨fuel - 1, by omega⟩
    obtain ⟨hkey, hvalue⟩ := hentry
    have hfresh : document.1 ∉ table.map Prod.fst := fun hmem => by
      rw [List.map_append, List.nodup_append] at hkeys
      exact hkeys.2.2 _ hmem _ List.mem_cons_self hkey
    have hput : table.put document.1 entry.2 = table ++ [entry] := by
      rw [put_of_not_mem hfresh, hkey]
    cases documents with
    | nil =>
      obtain rfl := List.forall₂_nil_left_iff.mp hentries
      rw [List.map_singleton, Text.joinWith_singleton] at hfuel ⊢
      rw [readMembers_member hvalue (by omega) table (follows_cons (.inr (.inr rfl)) rest), hput]
      rfl
    | cons next documents =>
      have hmark : Follows (',' :: ' ' ::
          (Text.joinWith ", " ((next :: documents).map member) ++ '\x7d' :: rest)) :=
        follows_cons (.inl rfl) _
      have hjoined : Text.joinWith ", " ((document :: next :: documents).map member) ++
          '\x7d' :: rest = member document ++ ',' :: ' ' ::
            (Text.joinWith ", " ((next :: documents).map member) ++ '\x7d' :: rest) := by
        simp
      rw [List.map_cons, List.map_cons, length_joinWith_cons] at hfuel
      rw [hjoined, readMembers_member hvalue (by omega) table hmark, hput]
      change readMembers most less (table ++ [entry]) (skipBlanks
        (Text.joinWith ", " ((next :: documents).map member) ++ '\x7d' :: rest)) = _
      have hkeys' : ((table ++ [entry] ++ entries).map Prod.fst).Nodup := by simpa using hkeys
      rw [(isOpening_members next documents rest).skipBlanks, ih (by simp) hkeys'
        (by rw [List.map_cons]; omega), List.append_assoc, List.singleton_append]

/-- Members are read as an object in the order of their keys. -/
theorem reads_object {documents : List (Text × Text)} {entries : Table}
    (h : List.Forall₂ (ReadsMember most)
      (documents.mergeSort fun a b => Text.isAtMost a.1 b.1) entries)
    (hkeys : (entries.map Prod.fst).Nodup) : Reads most (object documents) (.table entries) := by
  have hopening : IsOpening (object documents) := ⟨'\x7b', _, rfl, by decide, by decide⟩
  refine ⟨hopening, fun fuel hfuel rest _ => ?_⟩
  obtain ⟨less, rfl⟩ := hopening.exists_fuel hfuel
  unfold object at hfuel ⊢
  generalize documents.mergeSort (fun a b => Text.isAtMost a.1 b.1) = sorted at h hfuel ⊢
  have hwritten : '\x7b' :: Text.joinWith ", " (sorted.map member) ++ ['\x7d'] ++ rest =
      '\x7b' :: (Text.joinWith ", " (sorted.map member) ++ '\x7d' :: rest) := by simp
  simp only [List.length_cons, List.length_append, List.length_nil] at hfuel
  dsimp only
  rw [hwritten, readValue]
  cases h with
  | nil => rfl
  | @cons document entry documents entries hentry hentries =>
    have hread := readMembers_join (List.Forall₂.cons hentry hentries) (by simp)
      (hkeys : (([] ++ entry :: entries).map Prod.fst).Nodup) (by omega : _ < less) rest
    rw [(isOpening_members document documents rest).skipBlanks]
    obtain ⟨t, hfirst⟩ : ∃ t, Text.joinWith ", " ((document :: documents).map member) ++
        '\x7d' :: rest = '"' :: t := by
      cases documents <;> exact ⟨_, rfl⟩
    rw [hfirst] at hread ⊢
    change (readMembers most less [] ('"' :: t)).map (fun r => (Value.table r.1, r.2)) = _
    rw [hread]
    rfl

/-! ## Whole documents -/

theorem read_of_reads {document : Text} {v : Value} (h : Reads most document v) :
    read most document = .ok v := by
  have hread := h.reads (2 * document.length + 1) (by omega) [] follows_nil
  rw [List.append_nil] at hread
  rw [read, h.opening.skipBlanks, hread]
  rfl

theorem renderItems_eq (items : List Value) : renderItems items = items.map render := by
  induction items with
  | nil => rfl
  | cons item items ih => rw [renderItems, ih, List.map_cons]

/-! ## Arrays of strings -/

/-- An array of strings is read as the texts that it was written from. -/
theorem loadTexts_render (texts : List Text) :
    loadTexts (render (.array (texts.map .text))) = .ok texts := by
  have hreads : Reads (some Number.mostDigits) (render (.array (texts.map .text)))
      (.array (texts.map .text)) := by
    rw [render, renderItems_eq]
    refine reads_array (List.forall₂_map_left_iff.mpr (List.forall₂_map_left_iff.mpr
      (List.forall₂_map_right_iff.mpr (List.forall₂_same.mpr fun t _ => ?_))))
    rw [render]
    exact reads_string t
  rw [loadTexts, load, read_of_reads hreads]
  exact congrArg expected (Value.mapM_text?_eq_some_iff.mpr rfl)

/-! ## Printable ASCII -/

theorem isPlainAscii_joinWith {separator : Text} (hseparator : IsPlainAscii separator)
    {documents : List Text} (h : ∀ d ∈ documents, IsPlainAscii d) :
    IsPlainAscii (Text.joinWith separator documents) := by
  induction documents with
  | nil => exact fun c hc => absurd hc List.not_mem_nil
  | cons document documents ih =>
    obtain ⟨hdocument, hdocuments⟩ := List.forall_mem_cons.mp h
    cases documents with
    | nil => exact hdocument
    | cons next documents =>
      exact (hdocument.append hseparator).append (ih hdocuments)

theorem IsPlainAscii.cons {c : Char} (hc : 0x20 ≤ c.toNat ∧ c.toNat < 0x7F) {t : Text}
    (ht : IsPlainAscii t) : IsPlainAscii (c :: t) := by
  intro d hd
  rcases List.mem_cons.mp hd with rfl | hd
  · exact hc
  · exact ht d hd

theorem isPlainAscii_array {documents : List Text} (h : ∀ d ∈ documents, IsPlainAscii d) :
    IsPlainAscii (array documents) :=
  ((isPlainAscii_joinWith (by decide) h).cons (by decide)).append (by decide)

theorem isPlainAscii_object {documents : List (Text × Text)}
    (h : ∀ d ∈ documents, IsPlainAscii d.2) : IsPlainAscii (object documents) := by
  refine ((isPlainAscii_joinWith (by decide) fun d hd => ?_).cons (by decide)).append (by decide)
  obtain ⟨document, hdocument, rfl⟩ := List.mem_map.mp hd
  exact ((isPlainAscii_string _).append (by decide)).append (h _ (List.mem_mergeSort.mp hdocument))

theorem isPlainAscii_ofNat (n : Nat) : IsPlainAscii (Text.ofNat n) := by
  intro c hc
  obtain ⟨hlow, hhigh⟩ := Char.isDigit_iff_toNat.mp (Text.isAsciiDigit_of_mem_ofNat hc)
  exact ⟨Nat.le_trans (by decide) hlow, Nat.lt_of_le_of_lt hhigh (by decide)⟩

theorem isPlainAscii_ofInt (n : Int) : IsPlainAscii (Text.ofInt n) := by
  cases n with
  | ofNat n => exact isPlainAscii_ofNat n
  | negSucc n => exact (isPlainAscii_ofNat (n + 1)).cons (by decide)

theorem isPlainAscii_texts (texts : List Text) :
    IsPlainAscii (render (.array (texts.map .text))) := by
  rw [render, renderItems_eq]
  refine isPlainAscii_array fun d hd => ?_
  rw [List.map_map] at hd
  obtain ⟨t, -, rfl⟩ := List.mem_map.mp hd
  rw [Function.comp_apply, render]
  exact isPlainAscii_string t

end Drydock.Json
