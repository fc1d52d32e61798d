/-
  The loop behind lineages. It goes from a stage to the one that its base names, over a table of
  names that may lead forwards or back to the same stage. Each turn checks that it goes back, so what
  is found stays a chain of bases (`IsSound.turn`), and there are no more turns than stages before
  the first one (`exists_turns_eq`). What is found in the end is the lineage (`lineage_found`).
-/
import Drydock.Proofs.Dockerfile.Stage
import Mathlib.Data.List.Chain

namespace Drydock

theorem ImageReference.isPinned_eq_false_iff {r : ImageReference} :
    r.isPinned = false ↔ r.tag = none ∧ r.digest = none := by
  unfold isPinned
  cases r.tag <;> cases r.digest <;> simp

namespace Stage

/-- A stage is built on another one of some stages: its base has no tag and no digest, and its name
is that of the other stage. -/
structure IsBuiltOn (stages : List Stage) (s p : Stage) : Prop where
  mem : p ∈ stages
  tag : s.base.tag = none
  digest : s.base.digest = none
  name : p.base.stageName = some s.base.name

theorem isBuiltOn_of_get?_byName {stages : List Stage} {s p : Stage}
    (hopen : s.base.isPinned = false) (h : (byName stages).get? s.base.name = some p) :
    IsBuiltOn stages s p := by
  obtain ⟨hmem, hname⟩ := mem_of_get?_byName h
  obtain ⟨htag, hdigest⟩ := ImageReference.isPinned_eq_false_iff.mp hopen
  exact ⟨hmem, htag, hdigest, hname⟩

/-- How far the stages behind a stage are found: all of them so far, and the last one. -/
structure Pursuit where
  found : List Stage
  current : Stage
deriving DecidableEq, Repr

namespace Pursuit

variable {table : OrderedMap Text Stage} {stages : List Stage} {s : Stage} {p q : Pursuit}

/-- Nothing but the stage itself is found. -/
def start (s : Stage) : Pursuit := ⟨[s], s⟩

/-- One turn of the loop, unless it stops there. -/
def turn? (table : OrderedMap Text Stage) (p : Pursuit) : Option Pursuit :=
  if p.current.base.isPinned then none
  else
    match table.get? p.current.base.name with
    | none => none
    | some parent =>
      if p.current.index ≤ parent.index then none else some ⟨p.found ++ [parent], parent⟩

/-- Several turns of the loop, unless it stops before. -/
def turns (table : OrderedMap Text Stage) : Nat → Pursuit → Option Pursuit
  | 0, p => some p
  | n + 1, p => (p.turn? table).bind (turns table n)

/-! ## What a turn does -/

theorem turn?_eq_some_iff : p.turn? table = some q ↔
    p.current.base.isPinned = false ∧ table.get? p.current.base.name = some q.current ∧
      q.current.index < p.current.index ∧ q.found = p.found ++ [q.current] := by
  obtain ⟨found, current⟩ := q
  unfold turn?
  cases p.current.base.isPinned with
  | true => simp
  | false =>
    cases table.get? p.current.base.name with
    | none => simp
    | some parent =>
      by_cases hlate : p.current.index ≤ parent.index
      · simp only [Bool.false_eq_true, if_false, hlate, if_true, Option.some.injEq, true_and]
        refine iff_of_false (by simp) ?_
        rintro ⟨rfl, hbefore, -⟩
        omega
      · simp only [Bool.false_eq_true, if_false, hlate, Option.some.injEq, mk.injEq, true_and]
        constructor
        · rintro ⟨rfl, rfl⟩
          exact ⟨rfl, by omega, rfl⟩
        · rintro ⟨rfl, -, rfl⟩
          exact ⟨rfl, rfl⟩

/-- What is found begins with a stage and ends where the loop is, and each stage is built on the
next one, which stands before it. -/
structure IsSound (stages : List Stage) (s : Stage) (p : Pursuit) : Prop where
  head : p.found.head? = some s
  last : p.found.getLast? = some p.current
  linked : p.found.IsChain fun s p => IsBuiltOn stages s p ∧ p.index < s.index

theorem isSound_start (stages : List Stage) (s : Stage) : IsSound stages s (start s) :=
  ⟨rfl, rfl, List.isChain_singleton s⟩

/-- A turn goes back to a stage that the last one is built on. -/
theorem IsSound.turn (hp : IsSound stages s p) (h : p.turn? (byName stages) = some q) :
    IsSound stages s q := by
  obtain ⟨hopen, hparent, hbefore, hfound⟩ := turn?_eq_some_iff.mp h
  have hlink : IsBuiltOn stages p.current q.current := isBuiltOn_of_get?_byName hopen hparent
  constructor
  · rw [hfound, List.head?_append, hp.head]
    rfl
  · rw [hfound, List.getLast?_concat]
  · rw [hfound, List.isChain_append]
    refine ⟨hp.linked, List.isChain_singleton _, ?_⟩
    intro c hc parent hparent
    rw [hp.last, Option.mem_some_iff] at hc
    rw [List.head?_cons, Option.mem_some_iff] at hparent
    exact hc ▸ hparent ▸ ⟨hlink, hbefore⟩

theorem IsSound.turns {n : Nat} (hp : IsSound stages s p)
    (h : turns (byName stages) n p = some q) : IsSound stages s q := by
  induction n generalizing p with
  | zero => exact Option.some.inj h ▸ hp
  | succ n ih =>
    obtain ⟨next, hnext, hrest⟩ := Option.bind_eq_some_iff.mp h
    exact ih (hp.turn hnext) hrest

/-! ## Where the loop stops -/

/-- Each turn goes back, so the loop stops, and what it has found then is what was found before and
the rest of the lineage. -/
theorem exists_turns_eq (table : OrderedMap Text Stage) (front : List Stage) (s : Stage) :
    ∃ n ≤ s.index, ∃ q, turns table n ⟨front ++ [s], s⟩ = some q ∧ q.turn? table = none ∧
      q.found = front ++ lineageFrom table s := by
  fun_induction lineageFrom table s generalizing front with
  | case1 s hpinned => exact ⟨0, Nat.zero_le _, _, rfl, by simp [turn?, hpinned], rfl⟩
  | case2 s hopen hnone => exact ⟨0, Nat.zero_le _, _, rfl, by simp [turn?, hnone], rfl⟩
  | case3 s hopen parent hparent hbefore ih =>
    obtain ⟨n, hn, q, hturns, hstop, hfound⟩ := ih (front ++ [s])
    have hturn : turn? table ⟨front ++ [s], s⟩ = some ⟨front ++ [s] ++ [parent], parent⟩ :=
      turn?_eq_some_iff.mpr ⟨Bool.eq_false_iff.mpr hopen, hparent, hbefore, rfl⟩
    refine ⟨n + 1, by omega, q, ?_, hstop, ?_⟩
    · rw [Pursuit.turns, hturn]
      exact hturns
    · rw [hfound, List.append_assoc]
      rfl
  | case4 s hopen parent hparent hlate =>
    exact ⟨0, Nat.zero_le _, _, rfl, by simp [turn?, hparent, Nat.le_of_not_lt hlate], rfl⟩

end Pursuit

open Pursuit in
/--
The loop that starts from a stage stops after no more turns than there are stages before that one,
and what it has found is the lineage. This begins with the stage, the numbers in it decrease, and
each stage in it is built on the next one, whatever names the stages have.
-/
theorem lineage_found (stages : List Stage) (s : Stage) :
    let earlier := stages.take s.index
    (∃ n ≤ s.index, ∃ p, turns (byName earlier) n (start s) = some p ∧
      p.turn? (byName earlier) = none ∧ p.found = lineage stages s) ∧
    (lineage stages s).head? = some s ∧
    ((lineage stages s).map Stage.index).Pairwise (· > ·) ∧
    (lineage stages s).IsChain (IsBuiltOn earlier) := by
  obtain ⟨n, hn, p, hturns, hstop, hfound⟩ :=
    exists_turns_eq (byName (stages.take s.index)) [] s
  have hlineage : p.found = lineage stages s := hfound
  have hsound : IsSound (stages.take s.index) s p := (isSound_start _ s).turns hturns
  rw [← hlineage]
  refine ⟨⟨n, hn, p, hturns, hstop, rfl⟩, hsound.head, ?_, hsound.linked.imp fun _ _ h => h.1⟩
  rw [← List.isChain_iff_pairwise, List.isChain_map]
  exact hsound.linked.imp fun _ _ h => h.2

end Stage

end Drydock
