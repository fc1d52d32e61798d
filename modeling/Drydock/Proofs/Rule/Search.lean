/-
  The search for an ignore file. One rule makes it and no other looks at it, so another search
  changes the rules of a selection at that one place (`rules_searching`), and what they report under
  that one name (`filter_entry_searching`).
-/
import Drydock.Proofs.Engine.Report
import Drydock.Proofs.Rule.Registry

namespace Drydock

namespace Rule

/-- The name of the rule that looks for an ignore file. -/
def searchId : Text := "dockerignore-present"

/-- A rule with another search, if it is the one that makes it. -/
def searching (search : IgnoreSearch) (r : Rule) : Rule :=
  if r.id = searchId then (dockerignorePresent search).withSeverity r.severity else r

theorem searching_of_ne {r : Rule} (h : r.id ≠ searchId) (search : IgnoreSearch) :
    r.searching search = r := if_neg h

theorem searching_id (search : IgnoreSearch) (r : Rule) : (r.searching search).id = r.id := by
  unfold searching
  split
  · rename_i hid
    rw [withSeverity_id, hid]
    rfl
  · rfl

theorem searching_withSeverity (search other : IgnoreSearch) (severity : Severity) :
    ((dockerignorePresent other).withSeverity severity).searching search =
      (dockerignorePresent search).withSeverity severity := by
  have hid : ((dockerignorePresent other).withSeverity severity).id = searchId :=
    withSeverity_id _ severity
  rw [searching, if_pos hid, withSeverity_severity]

/-- Rules report the same under every other name, whatever the search. -/
theorem filter_entry_searching (search : IgnoreSearch) (instructions : List Instruction)
    (rules : List Rule) :
    ((rules.map (searching search)).map (Rule.entry instructions)).filter (·.1 ≠ searchId) =
      (rules.map (Rule.entry instructions)).filter (·.1 ≠ searchId) := by
  induction rules with
  | nil => rfl
  | cons r rules ih =>
    simp only [List.map_cons, List.filter_cons, ih, Rule.entry, searching_id]
    by_cases hid : r.id = searchId
    · simp [hid]
    · rw [searching_of_ne hid]

end Rule

namespace Registry

/-- Every entry makes the same whatever the search, but for the one whose rule makes it. -/
theorem build_searching (o : RuleOptions) (search : Rule.IgnoreSearch) : ∀ e ∈ entries,
    (e.info.id ≠ Rule.searchId ∧ e.build { o with search } = e.build o) ∨
    (e.build o = .ok (Rule.dockerignorePresent o.search) ∧
      e.build { o with search } = .ok (Rule.dockerignorePresent search)) := by
  simp only [entries, List.forall_mem_cons]
  refine ⟨?_, ?_, ?_, ?_, ?_, ?_, ?_, ?_, ?_, ?search, ?_, fun e he => absurd he List.not_mem_nil⟩
  case search => exact Or.inr ⟨trivial, trivial⟩
  all_goals exact Or.inl ⟨by decide, by trivial⟩

end Registry

namespace Selection

theorem adjust_searching (s : Selection) (search other : Rule.IgnoreSearch) :
    s.adjust (Rule.dockerignorePresent search) =
      (s.adjust (Rule.dockerignorePresent other)).map (Rule.searching search) := by
  have hsame : Rule.dockerignorePresent search =
      (Rule.dockerignorePresent other).searching search :=
    (Rule.searching_withSeverity search other .warning).symm
  have hid : ∀ search, (Rule.dockerignorePresent search).id = Rule.searchId := fun _ => rfl
  rw [adjust, adjust, hid, hid]
  cases s.severity.get? Rule.searchId with
  | none => exact congrArg Except.ok hsame
  | some name =>
    dsimp only
    cases Severity.ofName? (Text.upper name) with
    | none => rfl
    | some severity =>
      exact congrArg Except.ok (Rule.searching_withSeverity search other severity).symm

/-- A selection makes the same rules whatever the search, but for the one that makes it. -/
theorem rules_searching (s : Selection) (o : RuleOptions) (search : Rule.IgnoreSearch) :
    s.rules { o with search } = (s.rules o).map (List.map (Rule.searching search)) := by
  unfold rules
  split
  · refine mapM_eq_map fun e he => ?_
    have hentry := (List.mem_filter.mp he).1
    rcases Registry.build_searching o search e hentry with ⟨hid, hbuild⟩ | ⟨hbuild, hother⟩
    · rw [hbuild]
      cases hadjusted : e.build o >>= s.adjust with
      | error e => rfl
      | ok adjusted =>
        obtain ⟨r, hr, hadjust⟩ := exists_of_bind_eq_ok hadjusted
        have hmatches := Registry.isFaithful_of_mem_entries e hentry o r hr
        have hname := (matches_adjust hmatches hadjust).id
        exact congrArg Except.ok (Rule.searching_of_ne (hname ▸ hid) search).symm
    · rw [hbuild, hother]
      exact adjust_searching s search o.search
  · rfl

end Selection

end Drydock
