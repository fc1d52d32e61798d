/-
  Two readers of quotes. The one that looks for markers only knows whether it stands inside quotes;
  the other one reads words. They go through a text in step: where the first one stands is a
  function of what the second one has read (`after_eq_quoting`), so a quote is open for both of them
  or for none. A marker stands behind a blank and outside quotes. It begins a word there, but not
  behind an escaped blank, which belongs to a word itself (`isBetweenWords_iff_of_at?`). Together
  these are `quotes_read_alike`.
-/
import Drydock.Proofs.Dockerfile.Body
import Drydock.Proofs.Dockerfile.Words

namespace Drydock

namespace WordScan

/-! ## The two readers in step -/

/-- Where a reader of words stands with regard to quotes and backslashes. -/
def quoting (s : WordScan) : Quoting :=
  if s.escaped then .escaping s.quote
  else match s.quote with
    | some quote => .quoted quote
    | none => .plain

/-- What is open is a quote of one of the two kinds. -/
def HasQuote (s : WordScan) : Prop := ∀ quote, s.quote = some quote → quote = '"' ∨ quote = '\''

variable {s : WordScan} {c : Char}

@[simp] theorem isOpen_quoting (s : WordScan) : s.quoting.isOpen = s.isQuoted := by
  unfold quoting isQuoted
  cases s.escaped <;> cases s.quote <;> rfl

/-- A backslash is pending behind one that has no other in front and is not in single quotes. -/
theorem escaped_step (s : WordScan) (c : Char) :
    (s.step c).escaped = (!s.escaped && (c = '\\' && s.quote != some '\'')) := by
  unfold step
  grind [push, endWord]

/-- Quotes open and close where no backslash is read or pending, each kind closing itself only. -/
theorem quote_step (s : WordScan) (c : Char) :
    (s.step c).quote =
      if s.escaped || (c = '\\' && s.quote != some '\'') then s.quote
      else match s.quote with
        | some quote => if c = quote then none else some quote
        | none => if c = '"' || c = '\'' then some c else none := by
  unfold step
  grind [push, endWord]

theorem HasQuote.step (h : s.HasQuote) (c : Char) : (s.step c).HasQuote := by
  intro quote hopen
  rw [quote_step] at hopen
  split at hopen
  · exact h quote hopen
  · cases hquote : s.quote with
    | some other =>
      have hstill : c ≠ other ∧ other = quote := by simpa [hquote] using hopen
      exact h quote (hquote.trans (congrArg some hstill.2))
    | none =>
      have hmark : (c = '"' ∨ c = '\'') ∧ c = quote := by simpa [hquote] using hopen
      exact hmark.2 ▸ hmark.1

theorem HasQuote.read (h : s.HasQuote) (t : Text) : (s.read t).HasQuote := by
  induction t generalizing s with
  | nil => exact h
  | cons c t ih => exact ih (h.step c)

theorem hasQuote_read (t : Text) : (read {} t).HasQuote :=
  HasQuote.read (fun _ h => absurd h (by simp)) t

/-- One character moves both readers alike. -/
theorem quoting_step (h : s.HasQuote) (c : Char) : (s.step c).quoting = s.quoting.next c := by
  unfold quoting
  rw [escaped_step, quote_step]
  cases s.escaped with
  | true => cases s.quote <;> rfl
  | false =>
    cases hquote : s.quote with
    | none => grind [Quoting.next]
    | some quote =>
      -- One reader asks for a backslash first, the other for the closing quote, and no quote is a
      -- backslash.
      have hslash : quote ≠ '\\' := by rcases h quote hquote with rfl | rfl <;> decide
      grind [Quoting.next]

/-- A text moves both readers alike. -/
theorem quoting_read (h : s.HasQuote) (t : Text) :
    (s.read t).quoting = t.foldl Quoting.next s.quoting := by
  induction t generalizing s with
  | nil => rfl
  | cons c t ih => rw [read_cons, ih (h.step c), quoting_step h, List.foldl_cons]

/-- Where the reader of markers stands behind a text is where the reader of words does. -/
theorem after_eq_quoting (t : Text) : Quoting.after t = (read {} t).quoting :=
  (quoting_read (hasQuote_read []) t).symm

theorem isOpen_after (t : Text) : (Quoting.after t).isOpen = (read {} t).isQuoted := by
  rw [after_eq_quoting, isOpen_quoting]

theorem isOpen_after_eq_false_iff (t : Text) :
    (Quoting.after t).isOpen = false ↔ (read {} t).quote = none := by
  rw [isOpen_after, isQuoted, Option.isSome_eq_false_iff, Option.isNone_iff_eq_none]

/-! ## Between two words -/

/-- No word, no quote and no backslash is pending: what follows begins a word. -/
structure IsBetweenWords (s : WordScan) : Prop where
  current : s.current = []
  quote : s.quote = none
  escaped : s.escaped = false

/-- A blank neither opens a quote nor escapes what follows. -/
theorem ne_of_isBlank (h : Text.isBlank c = true) : c ≠ '\\' ∧ c ≠ '"' ∧ c ≠ '\'' := by
  refine ⟨?_, ?_, ?_⟩ <;> rintro rfl <;> exact absurd h (by decide)

/-- A blank behind which no quote is open ends a word, unless a backslash makes it part of one. -/
theorem isBetweenWords_step_iff (h : s.HasQuote) (hblank : Text.isBlank c = true)
    (hclosed : (s.step c).quote = none) : (s.step c).IsBetweenWords ↔ s.escaped = false := by
  obtain ⟨hslash, hmark⟩ := ne_of_isBlank hblank
  cases hescaped : s.escaped with
  | true =>
    have hpart : (s.step c).current ≠ [] := by simp [step, hescaped, push]
    exact iff_of_false (fun hbetween => hpart hbetween.current) (by simp)
  | false =>
    refine iff_of_true ⟨?_, hclosed, by simp [escaped_step, hslash]⟩ rfl
    cases hquote : s.quote with
    | some quote =>
      have hne : c ≠ quote := by rcases h quote hquote with rfl | rfl <;> simp [hmark]
      exact absurd hclosed (by simp [quote_step, hescaped, hslash, hquote, hne])
    | none =>
      have hend : s.step c = s.endWord := by simp [step, hescaped, hslash, hquote, hmark, hblank]
      rw [hend, endWord]
      split
      · rename_i hempty
        exact List.isEmpty_iff.mp hempty
      · rfl

end WordScan

/-- Between two words a text comes apart. -/
theorem Text.shellWords_append_of_isBetweenWords {a : Text}
    (h : (WordScan.read {} a).IsBetweenWords) (b : Text) :
    shellWords (a ++ b) = shellWords a ++ shellWords b := by
  have hend : (WordScan.read {} a).endWord = WordScan.read {} a := by
    rw [WordScan.endWord, h.current]
    rfl
  have hread : WordScan.read {} a = WordScan.behind (WordScan.read {} a).words {} := by
    have hclosed := WordScan.endWord_of_closed h.quote h.escaped
    rwa [hend] at hclosed
  unfold shellWords
  rw [WordScan.read_append, hend, hread, WordScan.read_behind, WordScan.endWord_behind]
  simp only [WordScan.behind, List.append_nil]

namespace HeredocMarker

open Text (shellWords)
open WordScan (IsBetweenWords)

variable {t : Text} {n : Nat} {m : HeredocMarker}

/-! ## Markers between words -/

theorem at?_eq_some_iff : at? t n = some m ↔
    (t.take n).getLast?.all Text.isBlank = true ∧ (Quoting.after (t.take n)).isOpen = false ∧
      read? (t.drop n) = some m := by
  simp [at?, and_assoc]

theorem lt_length_of_at? (h : at? t n = some m) : n < t.length := by
  obtain ⟨-, -, hread⟩ := at?_eq_some_iff.mp h
  refine Nat.lt_of_not_le fun hle => ?_
  rw [List.drop_eq_nil_of_le hle] at hread
  exact absurd hread (by simp [read?])

theorem quote_of_at? (h : at? t n = some m) : (WordScan.read {} (t.take n)).quote = none :=
  (WordScan.isOpen_after_eq_false_iff _).mp (at?_eq_some_iff.mp h).2.1

/-- A marker that does not begin the text stands behind a blank. -/
theorem exists_blank_of_at? (h : at? t (n + 1) = some m) :
    ∃ c, Text.isBlank c = true ∧ t.take (n + 1) = t.take n ++ [c] := by
  have hlt := lt_length_of_at? h
  have htake := List.take_succ_eq_append_getElem (Nat.lt_of_succ_lt hlt)
  have hblank := (at?_eq_some_iff.mp h).1
  rw [htake, List.getLast?_concat] at hblank
  exact ⟨_, hblank, htake⟩

/-- No backslash is pending where a marker stands. -/
theorem escaped_of_at? (h : at? t n = some m) :
    (WordScan.read {} (t.take n)).escaped = false := by
  cases n with
  | zero => rfl
  | succ n =>
    obtain ⟨c, hblank, htake⟩ := exists_blank_of_at? h
    have hslash := (WordScan.ne_of_isBlank hblank).1
    rw [htake, WordScan.read_append, WordScan.read_cons, WordScan.read_nil, WordScan.escaped_step]
    simp [hslash]

/-- A marker begins a word, unless the blank before it is escaped. -/
theorem isBetweenWords_iff_of_at? (h : at? t n = some m) :
    (WordScan.read {} (t.take n)).IsBetweenWords ↔
      (WordScan.read {} (t.take (n - 1))).escaped = false := by
  cases n with
  | zero => exact iff_of_true ⟨rfl, rfl, rfl⟩ rfl
  | succ n =>
    obtain ⟨c, hblank, htake⟩ := exists_blank_of_at? h
    have hquote := quote_of_at? h
    rw [htake, WordScan.read_append, WordScan.read_cons, WordScan.read_nil] at hquote ⊢
    exact WordScan.isBetweenWords_step_iff (WordScan.hasQuote_read _) hblank hquote

/--
At a place of a text a quote is open for the reader of markers just if one is open for the reader of
words; where none is, and no backslash is pending, a space divides the words of the text. The
markers of a text are those at its places, and a space could be put in front of each. A marker
begins a word just if no backslash is pending in front of the blank before it, and then the words
before it and from it on are the words of the text.
-/
theorem quotes_read_alike (t : Text) (n : Nat) :
    ((Quoting.after (t.take n)).isOpen = true ↔
      (WordScan.read {} (t.take n)).quote.isSome = true) ∧
    ((Quoting.after (t.take n)).isOpen = false → (WordScan.read {} (t.take n)).escaped = false →
      ∀ behind, shellWords (t.take n ++ ' ' :: behind) =
        shellWords (t.take n) ++ shellWords behind) ∧
    find t = (List.range t.length).filterMap (at? t) ∧
    ∀ m, at? t n = some m →
      shellWords (t.take n ++ ' ' :: t.drop n) = shellWords (t.take n) ++ shellWords (t.drop n) ∧
      ((WordScan.read {} (t.take n)).IsBetweenWords ↔
        (WordScan.read {} (t.take (n - 1))).escaped = false) ∧
      ((WordScan.read {} (t.take (n - 1))).escaped = false →
        shellWords t = shellWords (t.take n) ++ shellWords (t.drop n)) := by
  refine ⟨?_, fun hopen hescaped behind => ?_, find_eq_filterMap t,
    fun m h => ⟨?_, isBetweenWords_iff_of_at? h, fun hfree => ?_⟩⟩
  · rw [WordScan.isOpen_after, WordScan.isQuoted]
  · have hquote := (WordScan.isOpen_after_eq_false_iff _).mp hopen
    exact Text.shellWords_append_space hquote hescaped behind
  · exact Text.shellWords_append_space (quote_of_at? h) (escaped_of_at? h) _
  · have hbetween := (isBetweenWords_iff_of_at? h).mpr hfree
    rw [← Text.shellWords_append_of_isBetweenWords hbetween, List.take_append_drop]

/-- Quotes of both kinds with quotes and backslashes inside, and a marker behind them. -/
theorem quotes_read_alike_of_nested_quotes :
    ∃ t : Text, t = "a '\\' \"'\\\"\" <<E" ∧
      ((Quoting.after (t.take 9)).isOpen = true ∧
        (WordScan.read {} (t.take 9)).quote.isSome = true) ∧
      (Quoting.after (t.take 5)).isOpen = false ∧ (WordScan.read {} (t.take 5)).escaped = false ∧
      shellWords (t.take 5 ++ ' ' :: "'b c'") = ["a".toList, "\\".toList, "b c".toList] ∧
      at? t 12 = some ⟨"E", false⟩ ∧ (WordScan.read {} (t.take 11)).escaped = false ∧
      (WordScan.read {} (t.take 12)).IsBetweenWords ∧
      shellWords t = ["a".toList, "\\".toList, "'\"".toList, "<<E".toList] := by
  let t : Text := "a '\\' \"'\\\"\" <<E"
  have hopen := (quotes_read_alike t 9).1
  have hspace := (quotes_read_alike t 5).2.1 (by decide) (by decide) "'b c'"
  have hmarker : at? t 12 = some ⟨"E", false⟩ := by decide
  have hfree : (WordScan.read {} (t.take 11)).escaped = false := by decide
  obtain ⟨-, hbetween, hwords⟩ := (quotes_read_alike t 12).2.2.2 _ hmarker
  exact ⟨t, rfl, ⟨by decide, hopen.mp (by decide)⟩, by decide, by decide,
    hspace.trans (by decide), hmarker, hfree, hbetween.mpr hfree, (hwords hfree).trans (by decide)⟩

/-- A blank behind a backslash is part of a word, and what looks like a marker behind it goes on
this word; all the same a body is asked for. -/
theorem marker_inside_word :
    at? "cat \\ <<EOF" 6 = some ⟨"EOF", false⟩ ∧
      ¬ (WordScan.read {} ("cat \\ <<EOF".toList.take 6)).IsBetweenWords ∧
      shellWords "cat \\ <<EOF" = ["cat".toList, " <<EOF".toList] ∧
      Dockerfile.parse "FROM a\nRUN cat \\ <<EOF\nUSER b\n" =
        .error ⟨2, .unterminatedHeredoc "EOF"⟩ := by
  have hmarker : at? "cat \\ <<EOF" 6 = some ⟨"EOF", false⟩ := by decide
  have hescaped : ¬ (WordScan.read {} ("cat \\ <<EOF".toList.take 5)).escaped = false := by decide
  exact ⟨hmarker, mt (isBetweenWords_iff_of_at? hmarker).mp hescaped, by decide, by decide +kernel⟩

end HeredocMarker

end Drydock
