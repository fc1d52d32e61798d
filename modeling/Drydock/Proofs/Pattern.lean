/-
  Matches in longer texts. A pattern that does not ask for the beginning of the text sees the
  characters that it matches, and of what stands around them only whether a word goes on. So a text
  keeps its matches when others are put in front of it and behind it, if no word of it goes on in
  them (`occursIn_between`).
-/
import Drydock.Pattern

namespace Drydock

/-! ## Places -/

/-- Whether a text goes on with a word that stands right in front of it. -/
def Text.continuesWord (t : Text) : Bool := t.head?.any Text.isWordChar

namespace Place

/-- A place lies in a longer text as another one does in a shorter text: the longer text goes on
behind the shorter one, and words end in front of one place as they do in front of the other. -/
structure LiesAs (behind : Text) (p q : Place) : Prop where
  rest : q.rest = p.rest ++ behind
  before : q.before.any Text.isWordChar = p.before.any Text.isWordChar

namespace LiesAs

variable {behind : Text} {p q r : Place}

theorem atWordEdge (h : LiesAs behind p q) (hbehind : behind.continuesWord = false) :
    q.atWordEdge = p.atWordEdge := by
  have hhead : q.rest.head?.any Text.isWordChar = p.rest.head?.any Text.isWordChar := by
    rw [h.rest]
    cases p.rest with
    | nil => exact hbehind
    | cons c rest => rfl
  rw [Place.atWordEdge, h.before, hhead, Place.atWordEdge]

theorem length_lt {p' q' : Place} (h : LiesAs behind p q) (h' : LiesAs behind p' q')
    (hlt : p'.rest.length < p.rest.length) : q'.rest.length < q.rest.length := by
  rw [h.rest, h'.rest, List.length_append, List.length_append]
  omega

theorem exists_step {accepts : Char → Bool} (h : LiesAs behind p q) (hr : r ∈ p.step accepts) :
    ∃ s ∈ q.step accepts, LiesAs behind r s := by
  unfold Place.step at hr ⊢
  rw [h.rest]
  cases hrest : p.rest with
  | nil =>
    rw [hrest] at hr
    exact absurd hr List.not_mem_nil
  | cons c rest =>
    rw [hrest] at hr
    dsimp only [List.cons_append] at hr ⊢
    split at hr
    · rename_i haccepts
      obtain rfl := List.mem_singleton.mp hr
      exact ⟨⟨some c, rest ++ behind⟩, by simp [haccepts], ⟨rfl, rfl⟩⟩
    · exact absurd hr List.not_mem_nil

end LiesAs

end Place

/-! ## Matches -/

namespace Pattern

open Place (LiesAs)

/-- Whether a pattern does not ask for the beginning of the text. -/
def isMovable : Pattern → Bool
  | .empty => true
  | .one _ => true
  | .seq first second => first.isMovable && second.isMovable
  | .alt first second => first.isMovable && second.isMovable
  | .many q => q.isMovable
  | .edge => true
  | .start => false

variable {behind : Text} {p p' r : Place} {q : Pattern}

theorem mem_repeated_self (step : Place → List Place) (fuel : Nat) (p : Place) :
    p ∈ repeated step fuel p := by
  cases fuel with
  | zero => exact List.mem_singleton_self p
  | succ fuel => exact List.mem_cons_self

/-- What is reached by repeating a step is reached in the longer text too, where more steps may be
taken. -/
theorem exists_mem_repeated {step : Place → List Place}
    (hstep : ∀ p p', LiesAs behind p p' → ∀ r ∈ step p, ∃ s ∈ step p', LiesAs behind r s)
    {fuel fuel' : Nat} (hfuel : fuel ≤ fuel') (h : LiesAs behind p p')
    (hr : r ∈ repeated step fuel p) : ∃ s ∈ repeated step fuel' p', LiesAs behind r s := by
  induction fuel generalizing fuel' p p' with
  | zero =>
    obtain rfl := List.mem_singleton.mp hr
    exact ⟨p', mem_repeated_self step fuel' p', h⟩
  | succ fuel ih =>
    obtain ⟨more, rfl⟩ := Nat.exists_eq_add_of_le' (Nat.zero_lt_of_lt hfuel)
    rw [repeated] at hr
    rcases List.mem_cons.mp hr with rfl | hr
    · exact ⟨p', mem_repeated_self step _ p', h⟩
    · obtain ⟨next, hnext, hr⟩ := List.mem_flatMap.mp hr
      obtain ⟨hmem, hless⟩ := List.mem_filter.mp hnext
      obtain ⟨next', hmem', hnext'⟩ := hstep p p' h next hmem
      obtain ⟨s, hs, hlies⟩ := ih (Nat.le_of_succ_le_succ hfuel) hnext' hr
      have hless' := h.length_lt hnext' (of_decide_eq_true hless)
      refine ⟨s, List.mem_cons_of_mem _ (List.mem_flatMap.mpr ⟨next', ?_, hs⟩), hlies⟩
      exact List.mem_filter.mpr ⟨hmem', decide_eq_true hless'⟩

/-- A match in the shorter text is one in the longer text. -/
theorem exists_mem_ends (hq : q.isMovable = true) (hbehind : behind.continuesWord = false)
    (h : LiesAs behind p p') (hr : r ∈ q.ends p) : ∃ s ∈ q.ends p', LiesAs behind r s := by
  induction q generalizing p p' r with
  | empty =>
    obtain rfl := List.mem_singleton.mp hr
    exact ⟨p', List.mem_singleton_self p', h⟩
  | one accepts => exact h.exists_step hr
  | seq first second ihfirst ihsecond =>
    obtain ⟨hfirst, hsecond⟩ := Bool.and_eq_true_iff.mp hq
    obtain ⟨middle, hmiddle, hr⟩ := List.mem_flatMap.mp hr
    obtain ⟨middle', hmiddle', hlies⟩ := ihfirst hfirst h hmiddle
    obtain ⟨s, hs, hlies⟩ := ihsecond hsecond hlies hr
    exact ⟨s, List.mem_flatMap.mpr ⟨middle', hmiddle', hs⟩, hlies⟩
  | alt first second ihfirst ihsecond =>
    obtain ⟨hfirst, hsecond⟩ := Bool.and_eq_true_iff.mp hq
    rcases List.mem_append.mp hr with hr | hr
    · obtain ⟨s, hs, hlies⟩ := ihfirst hfirst h hr
      exact ⟨s, List.mem_append_left _ hs, hlies⟩
    · obtain ⟨s, hs, hlies⟩ := ihsecond hsecond h hr
      exact ⟨s, List.mem_append_right _ hs, hlies⟩
  | many q ih =>
    have hfuel : p.rest.length ≤ p'.rest.length := by
      rw [h.rest, List.length_append]
      omega
    exact exists_mem_repeated (fun _ _ hlies _ hmem => ih hq hlies hmem) hfuel h hr
  | edge =>
    rw [ends] at hr ⊢
    rw [h.atWordEdge hbehind]
    split at hr
    · rename_i hedge
      obtain rfl := List.mem_singleton.mp hr
      exact ⟨p', by simp [hedge], h⟩
    · exact absurd hr List.not_mem_nil
  | start => exact absurd hq Bool.false_ne_true

theorem matchesAt_of_liesAs (hq : q.isMovable = true) (hbehind : behind.continuesWord = false)
    (h : LiesAs behind p p') (hp : q.matchesAt p = true) : q.matchesAt p' = true := by
  rw [matchesAt, Bool.not_eq_true', List.isEmpty_eq_false_iff_exists_mem] at hp ⊢
  obtain ⟨r, hr⟩ := hp
  obtain ⟨s, hs, -⟩ := exists_mem_ends hq hbehind h hr
  exact ⟨s, hs⟩

/-! ## Texts around a text -/

theorem occursAfter_append_behind (hq : q.isMovable = true)
    (hbehind : behind.continuesWord = false) {before before' : Option Char}
    (hbefore : before'.any Text.isWordChar = before.any Text.isWordChar) {t : Text}
    (h : q.occursAfter before t = true) : q.occursAfter before' (t ++ behind) = true := by
  induction t generalizing before before' with
  | nil =>
    have hlies : LiesAs behind ⟨before, []⟩ ⟨before', behind⟩ := ⟨rfl, hbefore⟩
    have hmatch := matchesAt_of_liesAs hq hbehind hlies h
    cases behind with
    | nil => exact hmatch
    | cons c behind => exact Bool.or_eq_true_iff.mpr (Or.inl hmatch)
  | cons c t ih =>
    have hlies : LiesAs behind ⟨before, c :: t⟩ ⟨before', c :: (t ++ behind)⟩ := ⟨rfl, hbefore⟩
    rcases Bool.or_eq_true_iff.mp h with hmatch | hlater
    · exact Bool.or_eq_true_iff.mpr (Or.inl (matchesAt_of_liesAs hq hbehind hlies hmatch))
    · exact Bool.or_eq_true_iff.mpr (Or.inr (ih rfl hlater))

/-- What occurs behind the last character of a front occurs in the front and what follows it. -/
theorem occursAfter_append_front {front t : Text} {before : Option Char}
    (h : q.occursAfter (front.getLast?.or before) t = true) :
    q.occursAfter before (front ++ t) = true := by
  induction front generalizing before with
  | nil => exact h
  | cons c front ih =>
    refine Bool.or_eq_true_iff.mpr (Or.inr (ih ?_))
    rwa [List.getLast?_cons, Option.some_or, ← Option.or_some] at h

/-- What occurs in a text occurs in a longer one too, if no word of the text goes on in front of it
or behind it. -/
theorem occursIn_between (hq : q.isMovable = true) {front : Text}
    (hfront : front.getLast?.any Text.isWordChar = false) (hbehind : behind.continuesWord = false)
    {t : Text} (h : q.occursIn t = true) : q.occursIn (front ++ (t ++ behind)) = true := by
  refine occursAfter_append_front (occursAfter_append_behind hq hbehind ?_ h)
  rw [Option.or_none, hfront]
  rfl

end Pattern

end Drydock
