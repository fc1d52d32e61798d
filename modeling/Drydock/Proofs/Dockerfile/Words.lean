/-
  Words in quotes. A word may be written in double quotes, in single quotes or with backslashes;
  either way all its characters are read into the word that is open, and no quote is open behind it
  (`read_of_isWritten`). Where no quote is open, a space divides a text into two that are read each
  for itself (`shellWords_append_space`). So words that are written with spaces between them are
  read back (`shellWords_joinWith`), and a text without quotes and backslashes has the words between
  its blanks. Together these are `written_words_read_back`.
-/
import Drydock.Dockerfile.Words
import Drydock.Proofs.Text.Fields
import Mathlib.Data.List.Forall2

namespace Drydock

/-! ## How words are written -/

namespace Text

/-- Whether a character has a meaning of its own inside double quotes. -/
def isQuoteMark (c : Char) : Bool := c = '"' || c = '\\'

/-- The text with a backslash in front of each double quote and each backslash. -/
def shield (t : Text) : Text := t.flatMap fun c => if isQuoteMark c then ['\\', c] else [c]

/-- The text in double quotes. -/
def inQuotes (t : Text) : Text := '"' :: shield t ++ ['"']

/-- The text in single quotes. -/
def inSingleQuotes (t : Text) : Text := '\'' :: t ++ ['\'']

/-- The text with a backslash in front of each character. -/
def withBackslashes (t : Text) : Text := t.flatMap fun c => ['\\', c]

/-- The ways to write a word. -/
inductive IsWritten : (word written : Text) → Prop
  | inQuotes (word : Text) : IsWritten word (inQuotes word)
  | inSingleQuotes {word : Text} (h : '\'' ∉ word) : IsWritten word (inSingleQuotes word)
  | withBackslashes (word : Text) : IsWritten word (withBackslashes word)

theorem shield_cons (c : Char) (t : Text) :
    shield (c :: t) = (if isQuoteMark c then ['\\', c] else [c]) ++ shield t :=
  List.flatMap_cons

end Text

/-! ## Reading them -/

namespace WordScan

open Text (inQuotes inSingleQuotes shield isQuoteMark withBackslashes IsWritten)

/-- What has been read where no quote is open. -/
def between (words : List Text) (current : Text) : WordScan := { words, current }

/-- What has been read where a double quote is open. -/
def inside (words : List Text) (current : Text) : WordScan :=
  { words, current, quote := some '"' }

/-- What has been read where a single quote is open. -/
def insideSingle (words : List Text) (current : Text) : WordScan :=
  { words, current, quote := some '\'' }

variable (words : List Text) (current : Text)

/-- A shielded text is added to the word as it was before. -/
theorem read_shield (t : Text) :
    (inside words current).read (shield t) = inside words (current ++ t) := by
  induction t generalizing current with
  | nil => rw [List.append_nil]; rfl
  | cons c t ih =>
    have hone : (inside words current).read (if isQuoteMark c then ['\\', c] else [c]) =
        inside words (current ++ [c]) := by
      by_cases hc : isQuoteMark c
      · rw [if_pos hc]
        rfl
      · obtain ⟨hquote, hslash⟩ : c ≠ '"' ∧ c ≠ '\\' := by simpa [isQuoteMark] using hc
        rw [if_neg hc, read_cons, read_nil]
        simp [step, inside, push, hquote, hslash]
    rw [Text.shield_cons, read_append, hone, ih, List.append_assoc, List.singleton_append]

/-- A text in quotes is added to the word, and no quote is open behind it. -/
theorem read_inQuotes (t : Text) :
    (between words current).read (inQuotes t) = between words (current ++ t) := by
  have hopen : (between words current).step '"' = inside words current := rfl
  have hclose : (inside words (current ++ t)).step '"' = between words (current ++ t) := rfl
  rw [inQuotes, List.cons_append, read_cons, hopen, read_append, read_shield, read_cons, hclose,
    read_nil]

/-- Inside single quotes all other characters are added to the word. -/
theorem read_insideSingle {t : Text} (h : '\'' ∉ t) :
    (insideSingle words current).read t = insideSingle words (current ++ t) := by
  induction t generalizing current with
  | nil => rw [List.append_nil]; rfl
  | cons c t ih =>
    obtain ⟨hc, ht⟩ := not_or.mp (mt List.mem_cons.mpr h)
    have hone : (insideSingle words current).step c = insideSingle words (current ++ [c]) := by
      simp [step, insideSingle, push, Ne.symm hc]
    rw [read_cons, hone, ih _ ht, List.append_assoc, List.singleton_append]

theorem read_inSingleQuotes {t : Text} (h : '\'' ∉ t) :
    (between words current).read (inSingleQuotes t) = between words (current ++ t) := by
  have hopen : (between words current).step '\'' = insideSingle words current := rfl
  have hclose : (insideSingle words (current ++ t)).step '\'' = between words (current ++ t) := rfl
  rw [inSingleQuotes, List.cons_append, read_cons, hopen, read_append, read_insideSingle _ _ h,
    read_cons, hclose, read_nil]

/-- Behind a backslash any character is added to the word. -/
theorem read_withBackslashes (t : Text) :
    (between words current).read (withBackslashes t) = between words (current ++ t) := by
  induction t generalizing current with
  | nil => rw [List.append_nil]; rfl
  | cons c t ih =>
    have hone : (between words current).read ['\\', c] = between words (current ++ [c]) := rfl
    have hcons : withBackslashes (c :: t) = ['\\', c] ++ withBackslashes t := List.flatMap_cons
    rw [hcons, read_append, hone, ih, List.append_assoc, List.singleton_append]

/-- However a word is written, it is added to the open one, and no quote is open behind it. -/
theorem read_of_isWritten {word written : Text} (h : IsWritten word written) :
    (between words current).read written = between words (current ++ word) := by
  cases h with
  | inQuotes => exact read_inQuotes words current word
  | inSingleQuotes h => exact read_inSingleQuotes words current h
  | withBackslashes => exact read_withBackslashes words current word

theorem endWord_between {word : Text} (h : word ≠ []) :
    (between words word).endWord = between (words ++ [word]) [] := by
  rw [endWord, if_neg (by simpa [between] using h)]
  rfl

/-! ## Words read before -/

/-- The scan with further words in front of those that it has read. -/
def behind (front : List Text) (s : WordScan) : WordScan := { s with words := front ++ s.words }

variable {words current} (front : List Text) (s : WordScan)

theorem endWord_behind : (s.behind front).endWord = s.endWord.behind front := by
  unfold endWord
  show (if s.current.isEmpty then _ else _) = _
  split
  · rfl
  · simp only [behind, List.append_assoc]

theorem step_behind (c : Char) : (s.behind front).step c = (s.step c).behind front := by
  have hquote : (s.behind front).quote = s.quote := rfl
  rw [step, step, apply_ite (behind front), apply_ite (behind front), hquote]
  refine if_congr Iff.rfl rfl (if_congr Iff.rfl rfl ?_)
  cases s.quote with
  | some quote =>
    dsimp only
    rw [apply_ite (behind front)]
    rfl
  | none =>
    dsimp only
    rw [apply_ite (behind front), apply_ite (behind front), endWord_behind]
    rfl

theorem read_behind (t : Text) : (s.behind front).read t = (s.read t).behind front := by
  induction t generalizing s with
  | nil => rfl
  | cons c t ih => rw [read_cons, read_cons, step_behind, ih]

/-- Where no quote is open and no backslash is pending, the end of a word leaves nothing open. -/
theorem endWord_of_closed {s : WordScan} (hquote : s.quote = none) (hescaped : s.escaped = false) :
    s.endWord = behind s.endWord.words {} := by
  unfold endWord
  split
  · rename_i hnone
    rw [behind, List.append_nil]
    cases s
    simp_all
  · rw [behind, List.append_nil]
    cases s
    simp_all

end WordScan

/-! ## Words of a text -/

namespace Text

variable {a t word written : Text}

/-- Where no quote is open and no backslash is pending, a space divides the words of a text. -/
theorem shellWords_append_space (hquote : (WordScan.read {} a).quote = none)
    (hescaped : (WordScan.read {} a).escaped = false) (b : Text) :
    shellWords (a ++ ' ' :: b) = shellWords a ++ shellWords b := by
  have hspace : (WordScan.read {} a).step ' ' = (WordScan.read {} a).endWord := by
    rw [WordScan.step, hescaped, hquote]
    rfl
  unfold shellWords
  rw [WordScan.read_append, WordScan.read_cons, hspace, WordScan.endWord_of_closed hquote hescaped,
    WordScan.read_behind, WordScan.endWord_behind]
  simp only [WordScan.behind, List.append_nil]

theorem shellWords_of_isWritten (h : IsWritten word written) (hne : word ≠ []) :
    shellWords written = [word] := by
  have hread := WordScan.read_of_isWritten [] [] h
  rw [shellWords, show WordScan.read {} written = _ from hread, List.nil_append,
    WordScan.endWord_between [] hne]
  rfl

/-- Written words are the words of the text that joins them, if none of them is empty. -/
theorem shellWords_joinWith {words texts : List Text} (h : List.Forall₂ IsWritten words texts)
    (hne : ∀ word ∈ words, word ≠ []) : shellWords (joinWith " " texts) = words := by
  induction h with
  | nil => rfl
  | @cons word written words texts hword hrest ih =>
    obtain ⟨hfirst, hothers⟩ := List.forall_mem_cons.mp hne
    have hone := shellWords_of_isWritten hword hfirst
    cases hrest with
    | nil => rw [joinWith_singleton, hone]
    | cons hnext hrest =>
      have hread : WordScan.read {} written = _ := WordScan.read_of_isWritten [] [] hword
      rw [joinWith_space_cons, shellWords_append_space (by rw [hread]; rfl) (by rw [hread]; rfl),
        hone, ih hothers, List.singleton_append]

/-- A text without quotes and backslashes is read as the words between its blanks, the first of
which may have been begun before. -/
theorem words_read_plain (words : List Text) {current : Text}
    (hcurrent : ∀ c ∈ current, isBlank c = false)
    (ht : ∀ c ∈ t, c ≠ '"' ∧ c ≠ '\'' ∧ c ≠ '\\') :
    ((WordScan.between words current).read t).endWord.words = words ++ fields (current ++ t) := by
  have hend {current : Text} (hcurrent : ∀ c ∈ current, isBlank c = false) (words : List Text) :
      (WordScan.between words current).endWord =
        WordScan.between (words ++ fields current) [] := by
    by_cases hne : current = []
    · rw [hne, fields_nil, List.append_nil]
      rfl
    · rw [WordScan.endWord_between words hne, fields_of_isWord ⟨hne, hcurrent⟩]
  induction t generalizing words current with
  | nil =>
    rw [WordScan.read_nil, hend hcurrent, List.append_nil]
    rfl
  | cons c t ih =>
    obtain ⟨⟨hdouble, hsingle, hslash⟩, hrest⟩ := List.forall_mem_cons.mp ht
    rw [WordScan.read_cons]
    cases hc : isBlank c with
    | true =>
      have hstep : (WordScan.between words current).step c =
          (WordScan.between words current).endWord := by
        simp [WordScan.step, WordScan.between, hdouble, hsingle, hslash, hc]
      rw [hstep, hend hcurrent, ih _ (by simp) hrest, fields_append_blank hc, List.append_assoc,
        List.nil_append]
    | false =>
      have hstep : (WordScan.between words current).step c =
          WordScan.between words (current ++ [c]) := by
        simp [WordScan.step, WordScan.between, WordScan.push, hdouble, hsingle, hslash, hc]
      have hsolid : ∀ d ∈ current ++ [c], isBlank d = false :=
        List.forall_mem_append.mpr ⟨hcurrent, by simpa using hc⟩
      rw [hstep, ih words hsolid hrest, List.append_assoc, List.singleton_append]

/--
Words that are not empty, each written in double quotes with a backslash in front of each double
quote and backslash, or in single quotes if it has none of these, or with a backslash in front of
each character, are read back from the text that joins them by single spaces. A text without quotes
and backslashes is read as the words between its blanks. And where no quote is open and no backslash
is pending, a space divides a text into two that are read each for itself.
-/
theorem written_words_read_back :
    (∀ words texts : List Text, List.Forall₂ IsWritten words texts → (∀ word ∈ words, word ≠ []) →
      shellWords (joinWith " " texts) = words) ∧
    (∀ t : Text, (∀ c ∈ t, c ≠ '"' ∧ c ≠ '\'' ∧ c ≠ '\\') → shellWords t = fields t) ∧
    ∀ a b : Text, (WordScan.read {} a).quote = none → (WordScan.read {} a).escaped = false →
      shellWords (a ++ ' ' :: b) = shellWords a ++ shellWords b := by
  refine ⟨fun words texts => shellWords_joinWith, fun t ht => ?_, fun a b hquote hescaped => ?_⟩
  · exact words_read_plain [] (fun c hc => absurd hc List.not_mem_nil) ht
  · exact shellWords_append_space hquote hescaped b

/-- Quotes in quotes, blanks and backslashes in words; blanks of several kinds in a plain text; and
a front with a quote and a backslash that are read to their ends. -/
theorem written_words_read_back_of_nested_quotes :
    ∃ words texts : List Text,
      List.Forall₂ IsWritten words texts ∧ (∀ word ∈ words, word ≠ []) ∧
      joinWith " " texts = "\"say \\\"it's\\\"\" 'c:\\d \"' \\'\\ \\\\".toList ∧
      shellWords (joinWith " " texts) = (["say \"it's\"", "c:\\d \"", "' \\"] : List Text) ∧
      (∀ c ∈ "a \t\u00a0b\n".toList, c ≠ '"' ∧ c ≠ '\'' ∧ c ≠ '\\') ∧
      shellWords "a \t\u00a0b\n" = (["a", "b"] : List Text) ∧
      (WordScan.read {} "'\\'\\ ".toList).quote = none ∧
      (WordScan.read {} "'\\'\\ ".toList).escaped = false ∧
      shellWords ("'\\'\\ ".toList ++ ' ' :: "\"".toList) =
        shellWords "'\\'\\ " ++ shellWords "\"" := by
  let words : List Text := ["say \"it's\"", "c:\\d \"", "' \\"]
  let texts : List Text :=
    [inQuotes "say \"it's\"", inSingleQuotes "c:\\d \"", withBackslashes "' \\"]
  have hwritten : List.Forall₂ IsWritten words texts :=
    .cons (.inQuotes _) (.cons (.inSingleQuotes (by decide)) (.cons (.withBackslashes _) .nil))
  have hne : ∀ word ∈ words, word ≠ [] := by decide
  have hplain : ∀ c ∈ "a \t\u00a0b\n".toList, c ≠ '"' ∧ c ≠ '\'' ∧ c ≠ '\\' :=
    List.forall_iff_forall_mem.mp (by decide)
  have hfields := written_words_read_back.2.1 "a \t\u00a0b\n" hplain
  exact ⟨words, texts, hwritten, hne, by decide, written_words_read_back.1 words texts hwritten hne,
    hplain, hfields.trans (by decide), by decide, by decide,
    written_words_read_back.2.2 _ _ (by decide) (by decide)⟩

end Text

end Drydock
