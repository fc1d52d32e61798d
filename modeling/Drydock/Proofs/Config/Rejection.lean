/-
  Why configurations are rejected. What is wrong with an entry is a matter of that entry, but for an
  integer that no float is near: it is met as the threshold, or as the deadline behind a threshold
  that is a share (`ofTable_eq_beyondFloats_iff`). Each error of loading comes from a file that is
  looked at (`errsBy_load`).
-/
import Drydock.Proofs.Config.Entries
import Drydock.Proofs.Config.Load
import Drydock.Proofs.Number.Range

namespace Drydock.Config

/-! ## Integers beyond the floats -/

section Numbers

variable {field : Text} {v : Value} {v? : Option Value}

/-- An entry holds an integer that no float is near. -/
def IsBeyondFloats (v? : Option Value) : Prop :=
  ∃ n : Int, v? = some (.integer n) ∧ Number.leastBeyond ≤ n.natAbs

/-- What is read is not rejected for an integer that no float is near. -/
def IsWithinFloats {α : Type} (result : Except ConfigError α) : Prop :=
  result ≠ .error .beyondFloats

theorem readFloat_eq_beyondFloats_iff :
    readFloat field v = .error .beyondFloats ↔ IsBeyondFloats (some v) := by
  unfold IsBeyondFloats
  cases v with
  | integer n =>
    have hnone := Number.ofInt?_eq_none_iff n
    cases hn : Number.ofInt? n with
    | none => simp [readFloat, hn, hnone.mp hn]
    | some x =>
      have hless : ¬Number.leastBeyond ≤ n.natAbs := fun h => by simp [hnone.mpr h] at hn
      simp [readFloat, hn, hless]
  | _ => simp [readFloat]

/-- What is checked behind a float does not matter. -/
theorem readFloat_bind_eq_beyondFloats_iff {check : Float → Except ConfigError Float}
    (hcheck : ∀ x, IsWithinFloats (check x)) :
    readFloat field v >>= check = .error .beyondFloats ↔ IsBeyondFloats (some v) := by
  rw [bind_eq_error_iff, readFloat_eq_beyondFloats_iff, or_iff_left]
  rintro ⟨x, -, h⟩
  exact hcheck x h

theorem readThreshold_eq_beyondFloats_iff :
    readThreshold v = .error .beyondFloats ↔ IsBeyondFloats (some v) := by
  refine readFloat_bind_eq_beyondFloats_iff fun x => ?_
  split <;> simp [IsWithinFloats]

theorem readDeadline_eq_beyondFloats_iff :
    readDeadline v = .error .beyondFloats ↔ IsBeyondFloats (some v) := by
  refine readFloat_bind_eq_beyondFloats_iff fun x => ?_
  split <;> simp [IsWithinFloats]

theorem isBeyondFloats_given?_iff {table : Table} {key : Text} :
    IsBeyondFloats (given? table key) ↔ IsBeyondFloats (table.get? key) := by
  have hgiven (n : Int) : given? table key = some (.integer n) ↔
      table.get? key = some (.integer n) := by
    rw [given?_eq_some_iff, and_iff_left (by simp)]
  simp only [IsBeyondFloats, hgiven]

end Numbers

/-! ## Other errors -/

section Within

variable {α β : Type} {field : Text} {read : Value → Except ConfigError α} {v : Value}
  {v? : Option Value}

theorem isWithinFloats_ok (a : α) : IsWithinFloats (.ok a) := by simp [IsWithinFloats]

theorem IsWithinFloats.bind {x : Except ConfigError α} {f : α → Except ConfigError β}
    (hx : IsWithinFloats x) (hf : ∀ a, IsWithinFloats (f a)) : IsWithinFloats (x >>= f) := by
  intro h
  rcases bind_eq_error_iff.mp h with h | ⟨a, -, h⟩
  · exact hx h
  · exact hf a h

theorem isWithinFloats_readOr (h : ∀ v, IsWithinFloats (read v)) (usual : α) (v? : Option Value) :
    IsWithinFloats (readOr usual read v?) := by
  cases v? with
  | none => exact isWithinFloats_ok usual
  | some v => exact h v

theorem isWithinFloats_mapM (h : ∀ v, IsWithinFloats (read v)) (v? : Option Value) :
    IsWithinFloats (v?.mapM read) := by
  cases v? with
  | none => exact isWithinFloats_ok none
  | some v => exact fun hmap => h v (eq_error_of_map hmap)

theorem isWithinFloats_readTable (field : Text) (v? : Option Value) :
    IsWithinFloats (readTable field v?) := by
  intro h
  cases v? with
  | none => exact absurd h (by simp [readTable])
  | some v => cases v <;> simp [readTable] at h

theorem isWithinFloats_readTexts (field : Text) (v : Value) :
    IsWithinFloats (readTexts field v) := by
  intro h
  unfold readTexts at h
  split at h
  · split at h <;> exact absurd h (by simp)
  · exact absurd h (by simp)

theorem isWithinFloats_readBool (field : Text) (v : Value) : IsWithinFloats (readBool field v) := by
  cases v <;> simp [IsWithinFloats, readBool]

theorem isWithinFloats_readWorkers (v : Value) : IsWithinFloats (readWorkers v) := by
  refine IsWithinFloats.bind ?_ fun n => ?_
  · cases v <;> simp [IsWithinFloats, readInteger]
  · split <;> simp [IsWithinFloats]

theorem isWithinFloats_readChoice (field : Text) (choices : List (Text × α)) (v : Value) :
    IsWithinFloats (readChoice field choices v) := by
  unfold readChoice
  split
  · exact isWithinFloats_ok _
  · split <;> simp [IsWithinFloats]

theorem isWithinFloats_readSeverities (table : Table) (read : OrderedMap Text Severity) :
    IsWithinFloats (readSeverities read table) := by
  induction table generalizing read with
  | nil => exact isWithinFloats_ok read
  | cons entry table ih => exact (isWithinFloats_readChoice _ _ _).bind fun _ => ih _

end Within

/-! ## Tables -/

/-- A table in which an integer is met that no float is near. The rules, if given, are a table; and
the integer is the threshold, or the deadline beside a threshold that is a share, if given. -/
structure MeetsBeyondFloats (table : Table) : Prop where
  rules : ∀ v, given? table "rules" = some v → ∃ entries, v = .table entries
  number : IsBeyondFloats (table.get? "documentation_threshold") ∨
    (∀ v, table.get? "documentation_threshold" = some v →
      ∃ x, CountsAs v x ∧ Rule.isShare x = true) ∧
    IsBeyondFloats (table.get? "deadline_seconds")

theorem readTable_isOk_iff {field : Text} {v? : Option Value} :
    (∃ entries, readTable field v? = .ok entries) ↔
      ∀ v, v? = some v → ∃ entries, v = .table entries := by
  cases v? with
  | none => simp [readTable]
  | some v => cases v <;> simp [readTable]

theorem readOr_threshold_eq_beyondFloats_iff {v? : Option Value} :
    readOr Rule.defaultThreshold readThreshold v? = .error .beyondFloats ↔ IsBeyondFloats v? := by
  cases v? with
  | none => simp [readOr, IsBeyondFloats]
  | some v => exact readThreshold_eq_beyondFloats_iff

theorem readOr_threshold_isOk_iff {v? : Option Value} :
    (∃ x, readOr Rule.defaultThreshold readThreshold v? = .ok x) ↔
      ∀ v, v? = some v → ∃ x, CountsAs v x ∧ Rule.isShare x = true := by
  cases v? with
  | none => simp [readOr]
  | some v => simp [readOr, readThreshold_eq_ok_iff]

theorem mapM_deadline_eq_beyondFloats_iff {v? : Option Value} :
    v?.mapM readDeadline = .error .beyondFloats ↔ IsBeyondFloats v? := by
  cases v? with
  | none => simp [IsBeyondFloats, pure, Except.pure]
  | some v =>
    rw [← readDeadline_eq_beyondFloats_iff]
    show (readDeadline v).map some = _ ↔ _
    cases readDeadline v <;> simp [Except.map]

/-- A table is rejected for an integer that no float is near just if one is met. -/
theorem ofTable_eq_beyondFloats_iff {table : Table} {source : Option Text} :
    ofTable table source = .error .beyondFloats ↔ MeetsBeyondFloats table := by
  have hgiven : IsBeyondFloats (given? table "deadline_seconds") ↔
      IsBeyondFloats (table.get? "deadline_seconds") := isBeyondFloats_given?_iff
  constructor
  · intro h
    rcases bind_eq_error_iff.mp h with h | ⟨rules, hrules, h⟩
    · exact absurd h (isWithinFloats_readTable _ _)
    have hrules := readTable_isOk_iff.mp ⟨rules, hrules⟩
    rcases bind_eq_error_iff.mp h with h | ⟨threshold, hthreshold, h⟩
    · exact ⟨hrules, Or.inl (readOr_threshold_eq_beyondFloats_iff.mp h)⟩
    have hthreshold := readOr_threshold_isOk_iff.mp ⟨threshold, hthreshold⟩
    rcases bind_eq_error_iff.mp h with h | ⟨deadline, -, h⟩
    · exact ⟨hrules, Or.inr ⟨hthreshold, hgiven.mp (mapM_deadline_eq_beyondFloats_iff.mp h)⟩⟩
    -- What is read behind the deadline holds no floats.
    refine absurd h ?_
    refine (isWithinFloats_mapM isWithinFloats_readWorkers _).bind fun workers => ?_
    refine (isWithinFloats_readOr (isWithinFloats_readTexts _) _ _).bind fun denylist => ?_
    refine (isWithinFloats_readOr (isWithinFloats_readChoice _ _) _ _).bind fun format => ?_
    refine (isWithinFloats_readOr (isWithinFloats_readBool _) _ _).bind fun strict => ?_
    refine (isWithinFloats_mapM (isWithinFloats_readTexts _) _).bind fun enable => ?_
    refine (isWithinFloats_readOr (isWithinFloats_readTexts _) _ _).bind fun disable => ?_
    refine (isWithinFloats_readTable _ _).bind fun severities => ?_
    exact (isWithinFloats_readSeverities severities _).bind fun severity => isWithinFloats_ok _
  · rintro ⟨hrules, hnumber⟩
    obtain ⟨rules, hrules⟩ := readTable_isOk_iff.mpr hrules
    refine bind_eq_error_iff.mpr (Or.inr ⟨rules, hrules, ?_⟩)
    rcases hnumber with hthreshold | ⟨hthreshold, hdeadline⟩
    · have herror := readOr_threshold_eq_beyondFloats_iff.mpr hthreshold
      exact bind_eq_error_iff.mpr (Or.inl herror)
    · obtain ⟨threshold, hthreshold⟩ := readOr_threshold_isOk_iff.mpr hthreshold
      have herror := mapM_deadline_eq_beyondFloats_iff.mpr (hgiven.mpr hdeadline)
      refine bind_eq_error_iff.mpr (Or.inr ⟨threshold, hthreshold, ?_⟩)
      exact bind_eq_error_iff.mpr (Or.inl herror)

/-! ## Files -/

/-- What in a tree an error of loading comes from. -/
def ComesFrom (t : FileTree) : LoadError → Prop
  | .missing path => ∃ p : Path, path = p.text ∧ ∃ e, t.find p = .error e
  | .unreadable e => ∃ p, t.read p = .error e
  | .notUtf8 fault => ∃ p octets, t.read p = .ok octets ∧ Text.Utf8.decode octets = .error fault
  | .notToml path => ∃ p octets document, path = p.text ∧ t.read p = .ok octets ∧
      Text.Utf8.decode octets = .ok document ∧ Toml.read document = .error .malformed
  | .tooManyDigits count => ∃ p octets document, t.read p = .ok octets ∧
      Text.Utf8.decode octets = .ok document ∧ Toml.read document = .error (.tooManyDigits count)
  | .badEntry e => ∃ p octets table, t.read p = .ok octets ∧ readToml p.text octets = .ok table ∧
      ofTable (sectionOf p.name table) (some p.text) = .error e

section Files

variable {t t' : FileTree} {p : Path}

/-- If an error is what something comes to, it comes from a tree. -/
def ErrsBy {α : Type} (t : FileTree) (result : Except LoadError α) : Prop :=
  ∀ e, result = .error e → ComesFrom t e

theorem errsBy_ok {α : Type} (a : α) : ErrsBy t (.ok a) := fun _ h => absurd h (by simp)

theorem errsBy_readToml {octets : Text.Octets} (hread : t.read p = .ok octets) :
    ErrsBy t (readToml p.text octets) := by
  intro e h
  unfold readToml at h
  split at h
  · next fault hdecode =>
    obtain rfl := Except.error.inj h
    exact ⟨p, octets, hread, hdecode⟩
  · next document hdecode =>
    split at h
    · exact absurd h (by simp)
    · next hmalformed =>
      obtain rfl := Except.error.inj h
      exact ⟨p, octets, document, rfl, hread, hdecode, hmalformed⟩
    · next count hlong =>
      obtain rfl := Except.error.inj h
      exact ⟨p, octets, document, hread, hdecode, hlong⟩

theorem errsBy_ofSection {octets : Text.Octets} {table : Table} (hread : t.read p = .ok octets)
    (htoml : readToml p.text octets = .ok table) :
    ErrsBy t (ofSection p (sectionOf p.name table)) := by
  intro e h
  unfold ofSection at h
  split at h
  · exact absurd h (by simp)
  · next hrejected =>
    obtain rfl := Except.error.inj h
    exact ⟨p, octets, table, hread, htoml, hrejected⟩

/-- The section of a file, read from its octets. -/
theorem readSection_eq (p : Path) (t : FileTree) :
    (readSection p : StateM FileTree _) t =
      (match t.read p with
        | .error e => .error (.unreadable e)
        | .ok octets => (readToml p.text octets).map (sectionOf p.name), t) := by
  have hread : (Host.read p : StateM FileTree _) t = (t.read p, t) := rfl
  unfold readSection
  rw [FileTree.bind_of_eq hread]
  cases t.read p <;> rfl

/-- What is made of the section of a file errs by the file, if it does so by its section. -/
theorem errsBy_bind_section {f : Table → Except LoadError Config}
    (hf : ∀ octets table, t.read p = .ok octets → readToml p.text octets = .ok table →
      ErrsBy t (f (sectionOf p.name table))) :
    ErrsBy t (((readSection p : StateM FileTree _) t).1.bind f) := by
  intro e h
  rw [readSection_eq] at h
  cases hread : t.read p with
  | error fault =>
    rw [hread] at h
    obtain rfl := Except.error.inj h
    exact ⟨p, hread⟩
  | ok octets =>
    rw [hread] at h
    dsimp only at h
    cases htoml : readToml p.text octets with
    | error fault =>
      rw [htoml] at h
      obtain rfl := Except.error.inj h
      exact errsBy_readToml hread fault htoml
    | ok table =>
      rw [htoml] at h
      exact hf octets table hread htoml e h

theorem errsBy_readFile (p : Path) (t : FileTree) :
    ErrsBy t ((readFile p : StateM FileTree (Except LoadError Config)) t).1 :=
  errsBy_bind_section fun _ _ hread htoml => errsBy_ofSection hread htoml

theorem errsBy_loadShared (p : Path) (t : FileTree) :
    ErrsBy t ((loadShared p : StateM FileTree (Except LoadError Config)) t).1 := by
  have hexists : (Host.pathExists p : StateM FileTree Bool) t =
      (((Host.pathExists p : StateM FileTree Bool) t).1, t) := rfl
  unfold loadShared
  rw [FileTree.bind_of_eq hexists]
  split
  · refine errsBy_bind_section fun octets table hread htoml => ?_
    split
    · exact errsBy_ok _
    · exact errsBy_ofSection hread htoml
  · exact errsBy_ok _

/-- Each error of loading comes from a file that is looked at. -/
theorem errsBy_load (root : Path) (named : Option Path) (t : FileTree) :
    ErrsBy t ((load root named : StateM FileTree (Except LoadError Config)) t).1 := by
  have hdirectory : (Host.directory : StateM FileTree Path) t = (⟨.root, t.directory⟩, t) := rfl
  unfold load
  rw [FileTree.bind_of_eq hdirectory]
  cases named with
  | some p =>
    dsimp only
    generalize (root.resolve ⟨.root, t.directory⟩).join p = path
    have hexists : (Host.pathExists path : StateM FileTree Bool) t =
        (((t.find path).toOption.map fun found => found.2.kind).isSome, t) := rfl
    rw [FileTree.bind_of_eq hexists]
    cases hfind : t.find path with
    | ok found => exact errsBy_readFile path t
    | error fault =>
      intro e h
      obtain rfl := Except.error.inj h
      exact ⟨path, rfl, fault, hfind⟩
  | none =>
    dsimp only
    generalize ownFileNames.map (root.resolve ⟨.root, t.directory⟩).child = paths
    obtain ⟨found, hfound⟩ : ∃ found, (firstExisting? paths : StateM FileTree _) t = (found, t) :=
      ⟨_, (onlyLooks_firstExisting? paths).eq t⟩
    rw [FileTree.bind_of_eq hfound]
    cases found with
    | some p => exact errsBy_readFile p t
    | none => exact errsBy_loadShared _ t

end Files

end Drydock.Config
