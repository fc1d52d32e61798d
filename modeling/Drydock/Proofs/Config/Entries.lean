/-
  What the entries of a configuration are read as. A table is read entry by entry, so a
  configuration is read from it just if each entry says what the configuration has
  (`ofTable_eq_ok_iff`), and that is said for one kind of entry after the other before.
-/
import Drydock.Config.Basic
import Drydock.Proofs.Except
import Drydock.Proofs.OrderedMap

namespace Drydock.Config

variable {field key : Text} {v : Value} {v? : Option Value}

/-! ## Entries that may be absent -/

theorem given?_eq_some_iff {table : Table} :
    given? table key = some v ↔ table.get? key = some v ∧ v ≠ .null := by
  unfold given?
  cases hget : table.get? key with
  | none => simp
  | some found => cases found <;> simp <;> rintro rfl <;> simp

section Absent

variable {α : Type} {a : α} {a? : Option α} {read : Value → Except ConfigError α}

theorem mapM_eq_ok_iff : v?.mapM read = .ok a? ↔
    (v? = none ∧ a? = none) ∨ ∃ v a, v? = some v ∧ read v = .ok a ∧ a? = some a := by
  cases v? with
  | none =>
    have hnone : (none : Option Value).mapM read = .ok none := rfl
    rw [hnone]
    simp [eq_comm]
  | some v =>
    have hsome : (some v).mapM read = (read v).map some := rfl
    rw [hsome]
    cases hread : read v with
    | error e => simp [Except.map, hread]
    | ok a => simp [Except.map, hread, eq_comm]

theorem readOr_eq_ok_iff {usual : α} : readOr usual read v? = .ok a ↔
    (v? = none ∧ a = usual) ∨ ∃ v, v? = some v ∧ read v = .ok a := by
  cases v? <;> simp [readOr, eq_comm]

end Absent

/-! ## Single entries -/

theorem readTable_eq_ok_iff {entries : Table} : readTable field v? = .ok entries ↔
    (v? = none ∧ entries = []) ∨ v? = some (.table entries) := by
  cases v? with
  | none => simp [readTable, eq_comm]
  | some v => cases v <;> simp [readTable]

/-- What is read as a list of texts is such a list. -/
theorem readTexts_eq_ok_iff {texts : List Text} :
    readTexts field v = .ok texts ↔ v = textsValue texts := by
  cases v with
  | array items =>
    have hitems : items.mapM Value.text? = some texts ↔ items = texts.map .text :=
      Value.mapM_text?_eq_some_iff
    rw [readTexts, textsValue, Value.array.injEq, ← hitems]
    cases items.mapM Value.text? <;> simp
  | _ => simp [readTexts, textsValue]

/-- A value counts as a float: it is one, or an integer near to it. -/
def CountsAs (v : Value) (x : Float) : Prop :=
  v = .float x ∨ ∃ n, v = .integer n ∧ Number.ofInt? n = some x

theorem readFloat_eq_ok_iff {x : Float} : readFloat field v = .ok x ↔ CountsAs v x := by
  unfold CountsAs
  cases v with
  | integer n => cases hn : Number.ofInt? n <;> simp [readFloat, hn]
  | _ => simp [readFloat]

theorem readBool_eq_ok_iff {b : Bool} : readBool field v = .ok b ↔ v = .bool b := by
  cases v <;> simp [readBool]

theorem readInteger_eq_ok_iff {n : Int} : readInteger field v = .ok n ↔ v = .integer n := by
  cases v <;> simp [readInteger]

theorem readChoice_eq_ok_iff {α : Type} {choices : List (Text × α)} {choice : α} :
    readChoice field choices v = .ok choice ↔
      ∃ t, v = .text t ∧ choices.lookup (Text.lower t) = some choice := by
  unfold readChoice
  cases v with
  | text t =>
    have hbind : ((Value.text t).text?.bind fun t => choices.lookup (Text.lower t)) =
        choices.lookup (Text.lower t) := rfl
    rw [hbind]
    cases hfound : choices.lookup (Text.lower t) <;> simp [hfound]
  | _ => simp [Value.text?]

theorem readThreshold_eq_ok_iff {x : Float} :
    readThreshold v = .ok x ↔ CountsAs v x ∧ Rule.isShare x = true := by
  rw [readThreshold, bind_eq_ok_iff]
  simp only [readFloat_eq_ok_iff]
  constructor
  · rintro ⟨y, hy, h⟩
    split at h
    · next hshare =>
      obtain rfl := Except.ok.inj h
      exact ⟨hy, hshare⟩
    · exact absurd h (by simp)
  · rintro ⟨hx, hshare⟩
    exact ⟨x, hx, if_pos hshare⟩

theorem readDeadline_eq_ok_iff {x : Float} :
    readDeadline v = .ok x ↔ CountsAs v x ∧ ¬x ≤ 0 := by
  rw [readDeadline, bind_eq_ok_iff]
  simp only [readFloat_eq_ok_iff]
  constructor
  · rintro ⟨y, hy, h⟩
    split at h
    · exact absurd h (by simp)
    · next hlate =>
      obtain rfl := Except.ok.inj h
      exact ⟨hy, hlate⟩
  · rintro ⟨hx, hlate⟩
    exact ⟨x, hx, if_neg hlate⟩

theorem readWorkers_eq_ok_iff {n : Nat} :
    readWorkers v = .ok n ↔ v = .integer n ∧ 1 ≤ n := by
  rw [readWorkers, bind_eq_ok_iff]
  simp only [readInteger_eq_ok_iff]
  constructor
  · rintro ⟨count, rfl, h⟩
    split at h
    · exact absurd h (by simp)
    · next hcount =>
      obtain rfl := Except.ok.inj h
      refine ⟨congrArg Value.integer ?_, ?_⟩
      · omega
      · omega
  · rintro ⟨rfl, hn⟩
    exact ⟨n, rfl, if_neg (by omega)⟩

/-- The severities that are read are given to their rules one after the other. -/
theorem readSeverities_eq_ok_iff {read severity : OrderedMap Text Severity} {table : Table} :
    readSeverities read table = .ok severity ↔
      ∃ es : List (Text × Severity), severity = read.insertAll es ∧
        List.Forall₂ (fun entry e => entry.1 = e.1 ∧
          readChoice ("rules.severity." ++ entry.1) severityChoices entry.2 = .ok e.2)
          table es := by
  induction table generalizing read with
  | nil => simp [readSeverities, OrderedMap.insertAll, eq_comm]
  | cons entry table ih =>
    obtain ⟨id, v⟩ := entry
    rw [readSeverities]
    cases hread : readChoice ("rules.severity." ++ id) severityChoices v with
    | error e =>
      simp only [bind, Except.bind, reduceCtorEq, false_iff]
      rintro ⟨es, -, hes⟩
      cases hes with
      | cons hfirst _ => exact absurd (hread.symm.trans hfirst.2) (by simp)
    | ok found =>
      show readSeverities (read.insert id found) table = _ ↔ _
      rw [ih]
      constructor
      · rintro ⟨es, rfl, hes⟩
        exact ⟨(id, found) :: es, rfl, .cons ⟨rfl, hread⟩ hes⟩
      · rintro ⟨es, rfl, hes⟩
        cases hes with
        | cons hfirst hrest =>
          obtain ⟨rfl, hfound⟩ := hfirst
          obtain rfl := Except.ok.inj (hread.symm.trans hfound)
          exact ⟨_, rfl, hrest⟩

/-! ## Tables -/

/-- Each entry of a table is read as what a configuration has; those about rules have their own
table. -/
structure IsReadAs (table rules severities : Table) (c : Config) : Prop where
  ofRules : readTable "rules" (given? table "rules") = .ok rules
  threshold :
    readOr Rule.defaultThreshold readThreshold (table.get? "documentation_threshold") =
      .ok c.threshold
  deadline : (given? table "deadline_seconds").mapM readDeadline = .ok c.deadline
  workers : (given? table "workers").mapM readWorkers = .ok c.workers
  denylist :
    readOr Rule.defaultDenylist (readTexts "denylist_base_images")
      (given? table "denylist_base_images") = .ok c.denylist
  format :
    readOr OutputFormat.text (readChoice "format" formatChoices) (table.get? "format") =
      .ok c.format
  strict : readOr false (readBool "strict") (table.get? "strict") = .ok c.strict
  enable : (given? rules "enable").mapM (readTexts "rules.enable") = .ok c.enable
  disable : readOr [] (readTexts "rules.disable") (given? rules "disable") = .ok c.disable
  ofSeverities : readTable "rules.severity" (given? rules "severity") = .ok severities
  severity : readSeverities .empty severities = .ok c.severity

/-- Workers that are asked for are one or more. -/
theorem IsReadAs.one_le_workers {table rules severities : Table} {c : Config}
    (h : IsReadAs table rules severities c) : ∀ n ∈ c.workers, 1 ≤ n := by
  intro n hn
  rcases mapM_eq_ok_iff.mp h.workers with ⟨-, hnone⟩ | ⟨v, count, -, hread, hcount⟩
  · exact absurd (hnone.symm.trans hn) (by simp)
  · obtain rfl := Option.some.inj (hcount.symm.trans hn)
    exact (readWorkers_eq_ok_iff.mp hread).2

/-- A configuration is read from a table just if each of its entries is. -/
theorem ofTable_eq_ok_iff {table : Table} {source : Option Text} {c : Config} :
    ofTable table source = .ok c ↔
      c.source = source ∧ ∃ rules severities, IsReadAs table rules severities c := by
  constructor
  · intro h
    obtain ⟨rules, hrules, h⟩ := exists_of_bind_eq_ok h
    obtain ⟨threshold, hthreshold, h⟩ := exists_of_bind_eq_ok h
    obtain ⟨deadline, hdeadline, h⟩ := exists_of_bind_eq_ok h
    obtain ⟨workers, hworkers, h⟩ := exists_of_bind_eq_ok h
    obtain ⟨denylist, hdenylist, h⟩ := exists_of_bind_eq_ok h
    obtain ⟨format, hformat, h⟩ := exists_of_bind_eq_ok h
    obtain ⟨strict, hstrict, h⟩ := exists_of_bind_eq_ok h
    obtain ⟨enable, henable, h⟩ := exists_of_bind_eq_ok h
    obtain ⟨disable, hdisable, h⟩ := exists_of_bind_eq_ok h
    obtain ⟨severities, hseverities, h⟩ := exists_of_bind_eq_ok h
    obtain ⟨severity, hseverity, h⟩ := exists_of_bind_eq_ok h
    obtain rfl := Except.ok.inj h
    exact ⟨rfl, rules, severities, ⟨hrules, hthreshold, hdeadline, hworkers, hdenylist, hformat,
      hstrict, henable, hdisable, hseverities, hseverity⟩⟩
  · rintro ⟨rfl, rules, severities, h⟩
    simp only [ofTable, h.ofRules, h.threshold, h.deadline, h.workers, h.denylist, h.format,
      h.strict, bind, Except.bind]
    simp only [h.enable, h.disable, h.ofSeverities, h.severity]
    rfl

end Drydock.Config
