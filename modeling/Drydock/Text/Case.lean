/-
  Upper and lower case of whole texts. A character may become several, as the sharp s does, and a
  capital sigma becomes the final small sigma where it ends a word.
-/
import Drydock.Text.Case.Tables

namespace Drydock.Text

/-- The character at a distance from another. -/
def shifted (c : Char) (distance : Int) : Char := Char.ofNat (Int.toNat (c.toNat + distance))

/-- The distance that the runs give for a code point. -/
def caseDistance? (n : Nat) (runs : List CaseRun) : Option Int :=
  (runs.find? fun (first, last, step, _) => first ≤ n && n ≤ last && (n - first) % step = 0).map
    fun (_, _, _, distance) => distance

/-- A character's other case, as tables of single characters and of sequences give it. -/
def otherCase (runs : List CaseRun) (sequences : List (Nat × List Nat)) (c : Char) : Text :=
  match sequences.lookup c.toNat with
  | some sequence => sequence.map Char.ofNat
  | none =>
    match caseDistance? c.toNat runs with
    | some distance => [shifted c distance]
    | none => [c]

/-! ## Upper case -/

/-- The upper case of one character. -/
def upperChar (c : Char) : Text :=
  if c.toNat < 128 then [c.toUpper] else otherCase upperRuns upperSequences c

/-- The upper case of a text. -/
def upper (t : Text) : Text := t.flatMap upperChar

@[simp] theorem upper_nil : upper [] = [] := rfl

@[simp] theorem upper_cons (c : Char) (t : Text) : upper (c :: t) = upperChar c ++ upper t := rfl

@[simp] theorem upper_append (s t : Text) : upper (s ++ t) = upper s ++ upper t := by
  simp [upper]

/-! ## Lower case -/

/-- The lower case of one character that is not a capital sigma. -/
def lowerChar (c : Char) : Text :=
  if c.toNat < 128 then [c.toLower] else otherCase lowerRuns lowerSequences c

/-- The capital sigma, whose lower case depends on its neighbours. -/
def capitalSigma : Char := Char.ofNat 0x3A3

/-- Whether the nearest character that is not passed over has a case. -/
def meetsCased (t : Text) : Bool :=
  match t.dropWhile fun c => caseIgnorableRanges.contains c.toNat with
  | [] => false
  | c :: _ => casedRanges.contains c.toNat

/-- The lower case of a capital sigma between the text before it, read backwards, and after it. -/
def lowerSigma (before after : Text) : Char :=
  if meetsCased before && !meetsCased after then Char.ofNat 0x3C2 else Char.ofNat 0x3C3

/-- The lower case of a text behind the characters `before`, read backwards. -/
def lowerFrom (before : Text) : Text → Text
  | [] => []
  | c :: t =>
    (if c = capitalSigma then [lowerSigma before t] else lowerChar c) ++ lowerFrom (c :: before) t

/-- The lower case of a text. -/
def lower (t : Text) : Text := lowerFrom [] t

@[simp] theorem lower_nil : lower [] = [] := rfl

/-- Without a capital sigma, lower case is taken character by character. -/
theorem lowerFrom_eq_flatMap {t : Text} (h : capitalSigma ∉ t) (before : Text) :
    lowerFrom before t = t.flatMap lowerChar := by
  induction t generalizing before with
  | nil => rfl
  | cons c t ih =>
    have hc : c ≠ capitalSigma := fun e => h (by simp [e])
    have ht : capitalSigma ∉ t := fun e => h (by simp [e])
    simp [lowerFrom, hc, ih ht]

/-! ## Letters regardless of case -/

/--
The small ASCII letter that a character counts as when case is disregarded: beside the capital
letters, the long s, the Kelvin sign, and the i's with a missing or an extra dot.
-/
def foldLetter (c : Char) : Char :=
  if c.toNat = 0x17F then 's'
  else if c.toNat = 0x212A then 'k'
  else if c.toNat = 0x130 || c.toNat = 0x131 then 'i'
  else c.toLower

end Drydock.Text
