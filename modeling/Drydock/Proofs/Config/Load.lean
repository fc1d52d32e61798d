/-
  Configurations that are loaded. Such a one is what a table says, or else the one that no file says
  anything of, so what the entries of a table are checked for holds of it; and to load it only looks
  at files (`finds_load`).
-/
import Drydock.Config.Load
import Drydock.Proofs.Config.Entries
import Drydock.Proofs.Files.Tree

namespace Drydock.Config

open FileTree (Finds OnlyLooks)

/-! ## Configurations that are stated -/

/-- A configuration is what a table says, or the one that no file says anything of. -/
def IsStated (c : Config) : Prop := c = {} ∨ ∃ table source, ofTable table source = .ok c

/-- A configuration that asks for workers asks for one or more. -/
theorem IsStated.one_le_workers {c : Config} (h : c.IsStated) : ∀ n ∈ c.workers, 1 ≤ n := by
  rcases h with rfl | ⟨table, source, h⟩
  · exact fun n hn => absurd hn (by simp)
  · obtain ⟨-, rules, severities, hread⟩ := ofTable_eq_ok_iff.mp h
    exact hread.one_le_workers

/-- What was loaded, if anything was, is a configuration that is stated. -/
def LoadsStated (loaded : Except LoadError Config) : Prop := ∀ c, loaded = .ok c → c.IsStated

theorem loadsStated_ofSection (p : Path) (table : Table) : LoadsStated (ofSection p table) := by
  intro c h
  unfold ofSection at h
  split at h
  · rename_i hread
    obtain rfl := Except.ok.inj h
    exact Or.inr ⟨table, _, hread⟩
  · exact absurd h (by simp)

theorem LoadsStated.bind {table : Except LoadError Table} {f : Table → Except LoadError Config}
    (h : ∀ table, LoadsStated (f table)) : LoadsStated (table.bind f) := by
  intro c hc
  cases table with
  | error e => exact absurd hc (by simp [Except.bind])
  | ok table => exact h table c hc

/-! ## Loading -/

theorem onlyLooks_readSection (p : Path) :
    OnlyLooks (readSection p : StateM FileTree (Except LoadError Table)) := by
  refine (FileTree.onlyLooks_read p).bind fun octets _ => ?_
  cases octets <;> exact Finds.pure trivial

theorem finds_readFile (p : Path) :
    Finds LoadsStated (readFile p : StateM FileTree (Except LoadError Config)) :=
  (onlyLooks_readSection p).bind fun _ _ => Finds.pure (.bind (loadsStated_ofSection p))

theorem onlyLooks_firstExisting? (paths : List Path) :
    OnlyLooks (firstExisting? paths : StateM FileTree (Option Path)) := by
  induction paths with
  | nil => exact Finds.pure trivial
  | cons p rest ih =>
    refine (FileTree.onlyLooks_pathExists p).bind fun found _ => ?_
    cases found with
    | true => exact Finds.pure trivial
    | false => exact ih

theorem finds_loadShared (p : Path) :
    Finds LoadsStated (loadShared p : StateM FileTree (Except LoadError Config)) := by
  refine (FileTree.onlyLooks_pathExists p).bind fun found _ => ?_
  cases found with
  | true =>
    refine (onlyLooks_readSection p).bind fun _ _ => Finds.pure (.bind fun table => ?_)
    split
    · exact fun c hc => Or.inl (Except.ok.inj hc).symm
    · exact loadsStated_ofSection p table
  | false => exact Finds.pure fun c hc => Or.inl (Except.ok.inj hc).symm

/-- To load a configuration only looks at files, and what is loaded is stated by one of them. -/
theorem finds_load (root : Path) (named : Option Path) :
    Finds LoadsStated (load root named : StateM FileTree (Except LoadError Config)) := by
  refine FileTree.onlyLooks_directory.bind fun directory _ => ?_
  cases named with
  | some p =>
    refine (FileTree.onlyLooks_pathExists _).bind fun found _ => ?_
    cases found with
    | true => exact finds_readFile _
    | false => exact Finds.pure fun c hc => absurd hc (by simp)
  | none =>
    refine (onlyLooks_firstExisting? _).bind fun found _ => ?_
    cases found with
    | some p => exact finds_readFile p
    | none => exact finds_loadShared _

end Drydock.Config
