/-
  Rules on a pool of threads. Rules wait until a thread is free, run, and finish in any order; the
  pool may be looked at before all of them have. No step loses a rule that waits, runs or has
  finished (`IsDistributed`), so what has finished is some of the rules in some order
  (`perm_finished`). A run on threads with a deadline reports on what has finished when it passes,
  and the report does not depend on that order (`report_of_pool`).
-/
import Drydock.Proofs.Engine.Deadline
import Mathlib.Data.List.Perm.Basic
import Mathlib.Logic.Relation

namespace Drydock.Engine

/-- The rules of a pool: those that wait, in the order in which they were submitted, those that
threads are at, and what those came to that have finished, in the order in which they did. -/
structure Pool where
  waiting : List Rule
  running : List Rule
  finished : Completed

namespace Pool

/-- All rules are submitted at once. -/
def submit (rules : List Rule) : Pool := ⟨rules, [], []⟩

/-- Nothing is left to do. -/
def IsIdle (p : Pool) : Prop := p.waiting = [] ∧ p.running = []

/-- Whether a rule has finished. -/
def hasFinished (p : Pool) (id : Text) : Bool := p.finished.any fun e => e.1 = id

/-- What a pool of some threads does next: a free thread takes the first rule, or one finishes. -/
inductive Step (threads : Nat) (instructions : List Instruction) : Pool → Pool → Prop
  | start {r : Rule} {waiting running : List Rule} {finished : Completed}
      (free : running.length < threads) :
      Step threads instructions ⟨r :: waiting, running, finished⟩ ⟨waiting, r :: running, finished⟩
  | finish {r : Rule} {waiting front back : List Rule} {finished : Completed} :
      Step threads instructions ⟨waiting, front ++ r :: back, finished⟩
        ⟨waiting, front ++ back, finished ++ [r.outcome instructions]⟩

/-- What a pool may come to. -/
def Reaches (threads : Nat) (instructions : List Instruction) : Pool → Pool → Prop :=
  Relation.ReflTransGen (Step threads instructions)

/-- Each rule waits, runs or has finished. -/
def IsDistributed (instructions : List Instruction) (rules : List Rule) (p : Pool) : Prop :=
  ((p.waiting ++ p.running).map (Rule.outcome instructions) ++ p.finished).Perm
    (rules.map (Rule.outcome instructions))

variable {threads : Nat} {instructions : List Instruction} {rules : List Rule} {p q : Pool}

theorem hasFinished_iff {id : Text} : p.hasFinished id = true ↔ id ∈ p.finished.map Prod.fst := by
  simp [hasFinished]

/-- A step moves one rule on and loses none. -/
theorem isDistributed_step (hp : IsDistributed instructions rules p)
    (h : Step threads instructions p q) : IsDistributed instructions rules q := by
  cases h with
  | start free =>
    refine List.Perm.trans (List.Perm.append_right _ (List.Perm.map _ ?_)) hp
    exact List.perm_middle
  | finish =>
    refine List.Perm.trans ?_ hp
    simp only [List.map_append, List.map_cons, List.append_assoc]
    refine List.Perm.append_left _ (List.Perm.append_left _ ?_)
    rw [← List.append_assoc]
    exact List.perm_append_singleton _ _

theorem isDistributed_reaches (h : Reaches threads instructions (submit rules) p) :
    IsDistributed instructions rules p := by
  induction h with
  | refl => simp [IsDistributed, submit]
  | tail _ hstep ih => exact isDistributed_step ih hstep

/-- What has finished is some of the rules in some order. -/
theorem perm_finished (hids : (rules.map Rule.id).Nodup) (hp : IsDistributed instructions rules p) :
    p.finished.Perm
      ((rules.filter fun r => p.hasFinished r.id).map (Rule.outcome instructions)) := by
  have hsub : ∀ e ∈ p.finished, ∃ r ∈ rules, r.outcome instructions = e := fun e he =>
    List.mem_map.mp (hp.subset (List.mem_append_right _ he))
  have hfirsts := (hp.map Prod.fst).nodup_iff.mpr (by rwa [map_fst_outcome])
  rw [List.map_append] at hfirsts
  refine (List.perm_ext_iff_of_nodup (List.Nodup.of_map _ (List.nodup_append.mp hfirsts).2.1)
    (List.Nodup.of_map Prod.fst ?_)).mpr fun e => ⟨fun he => ?_, fun he => ?_⟩
  · rw [map_fst_outcome]
    exact nodup_ids_filter hids _
  · obtain ⟨r, hr, rfl⟩ := hsub e he
    have hfinished : p.hasFinished r.id = true :=
      List.any_eq_true.mpr ⟨_, he, by simp [Rule.outcome]⟩
    exact List.mem_map_of_mem (List.mem_filter.mpr ⟨hr, hfinished⟩)
  · obtain ⟨r, hr, rfl⟩ := List.mem_map.mp he
    obtain ⟨hmem, hfinished⟩ := List.mem_filter.mp hr
    obtain ⟨found, hfound, hid⟩ := List.any_eq_true.mp hfinished
    obtain ⟨other, hother, rfl⟩ := hsub found hfound
    -- Two rules of one name are the same rule.
    rwa [List.inj_on_of_nodup_map hids hother hmem (of_decide_eq_true hid)] at hfound

theorem perm_of_isIdle (hp : IsDistributed instructions rules p) (hidle : p.IsIdle) :
    p.finished.Perm (rules.map (Rule.outcome instructions)) := by
  obtain ⟨waiting, running, finished⟩ := p
  obtain ⟨rfl, rfl⟩ := hidle
  exact hp

/-! ## Every order -/

/-- With threads enough all rules may start before any finishes. -/
theorem reaches_of_start {waiting running : List Rule} (finished : Completed)
    (hthreads : waiting.length + running.length ≤ threads) :
    Reaches threads instructions ⟨waiting, running, finished⟩
      ⟨[], waiting.reverse ++ running, finished⟩ := by
  induction waiting generalizing running with
  | nil => exact Relation.ReflTransGen.refl
  | cons r waiting ih =>
    rw [List.length_cons] at hthreads
    have hfree : running.length < threads := by omega
    rw [List.reverse_cons, List.append_assoc, List.singleton_append]
    refine Relation.ReflTransGen.head (Step.start hfree) (ih ?_)
    rw [List.length_cons]
    omega

/-- Running rules may finish in any order, and some of them before the others. -/
theorem reaches_of_finish {running order left : List Rule} (finished : Completed)
    (h : running.Perm (order ++ left)) : ∃ rest, rest.Perm left ∧
      Reaches threads instructions ⟨[], running, finished⟩
        ⟨[], rest, finished ++ order.map (Rule.outcome instructions)⟩ := by
  induction order generalizing running finished with
  | nil =>
    rw [List.map_nil, List.append_nil]
    exact ⟨running, h, Relation.ReflTransGen.refl⟩
  | cons r order ih =>
    obtain ⟨front, back, rfl⟩ := List.append_of_mem (h.symm.subset List.mem_cons_self)
    have hothers : (front ++ back).Perm (order ++ left) :=
      (List.perm_middle.symm.trans h).cons_inv
    obtain ⟨rest, hrest, hreaches⟩ := ih (finished ++ [r.outcome instructions]) hothers
    rw [List.append_assoc, List.singleton_append, ← List.map_cons] at hreaches
    exact ⟨rest, hrest, Relation.ReflTransGen.head Step.finish hreaches⟩

/-- Whatever rules are to finish first, and in whatever order, there is a run in which they do. -/
theorem exists_reaches_of_order {order left : List Rule} (h : (order ++ left).Perm rules)
    (hthreads : rules.length ≤ threads) : ∃ rest, rest.Perm left ∧
      Reaches threads instructions (submit rules)
        ⟨[], rest, order.map (Rule.outcome instructions)⟩ := by
  have hstart : Reaches threads instructions (submit rules) ⟨[], rules.reverse ++ [], []⟩ :=
    reaches_of_start [] hthreads
  have hrunning : (rules.reverse ++ []).Perm (order ++ left) := by
    rw [List.append_nil]
    exact rules.reverse_perm.trans h.symm
  obtain ⟨rest, hrest, hreaches⟩ := reaches_of_finish [] hrunning
  exact ⟨rest, hrest, hstart.trans hreaches⟩

/-! ## Waiting for the end -/

/-- How many steps a pool can make. -/
def work (p : Pool) : Nat := 2 * p.waiting.length + p.running.length

theorem work_lt_of_step (h : Step threads instructions p q) : q.work < p.work := by
  cases h with
  | start => simp [work]; omega
  | finish => simp [work]

/-- A pool with a thread that has something left to do goes on. -/
theorem exists_step (hthreads : 0 < threads) (instructions : List Instruction)
    (hbusy : ¬p.IsIdle) :
    ∃ q, Step threads instructions p q := by
  obtain ⟨waiting, running, finished⟩ := p
  cases running with
  | cons r running =>
    have hfinish : Step threads instructions ⟨waiting, [] ++ r :: running, finished⟩
      ⟨waiting, [] ++ running, finished ++ [r.outcome instructions]⟩ := Step.finish
    exact ⟨_, hfinish⟩
  | nil =>
    cases waiting with
    | nil => exact absurd ⟨rfl, rfl⟩ hbusy
    | cons r waiting => exact ⟨_, Step.start hthreads⟩

/-- A pool comes to its end, whatever it does first. -/
theorem exists_isIdle (hthreads : 0 < threads) (p : Pool) :
    ∃ q, Reaches threads instructions p q ∧ q.IsIdle := by
  by_cases hidle : p.IsIdle
  · exact ⟨p, Relation.ReflTransGen.refl, hidle⟩
  · obtain ⟨next, hnext⟩ := exists_step hthreads instructions hidle
    have hlt := work_lt_of_step hnext
    obtain ⟨q, hq, hend⟩ := exists_isIdle hthreads next
    exact ⟨q, Relation.ReflTransGen.head hnext hq, hend⟩
termination_by p.work

end Pool

/-! ## Reports on pools -/

theorem nodup_fst_finished (hids : (rules.map Rule.id).Nodup)
    (hp : Pool.IsDistributed instructions rules p) : (p.finished.map Prod.fst).Nodup := by
  rw [((Pool.perm_finished hids hp).map Prod.fst).nodup_iff, map_fst_outcome]
  exact nodup_ids_filter hids _

section Reporting

variable {m : Type → Type} [Monad m] [LawfulMonad m] {τ : Type} [Duration τ] {e : Engine m}

/-- What is done in time is merged, in whatever order it was done. -/
theorem exists_merges_run (he : e.inspectors = rules.map Rule.inspector) (htimeout : timeoutId ∉ e.ids)
    (hworkers : e.workers ≠ some 1) (clock : m τ) {deadline : τ}
    (hdeadline : Duration.le deadline Duration.zero = false) (source : Text)
    (instructions : List Instruction) (schedule : Schedule) : ∃ run : Run,
      e.run clock (some deadline) source instructions schedule = pure (.ok run) ∧
      Merges rules instructions (schedule e.ids).contains (Duration.text deadline) run.report := by
  have hnames := ids_of_inspectors he
  have hids : (rules.map Rule.id).Nodup := hnames ▸ e.distinct
  have htime : ∀ limit ∈ some deadline, Duration.le limit Duration.zero = false := by
    rintro limit ⟨rfl⟩
    exact hdeadline
  obtain ⟨completed, hperm, hrun⟩ :=
    exists_run_threaded he hworkers clock htime source instructions schedule
  refine ⟨_, hrun, ?_⟩
  rw [hnames] at htimeout hperm ⊢
  exact merges_reportOf hids htimeout hperm _ source

/-- If a pool has finished just the rules that are done in time, it is what is reported on. -/
theorem exists_run_of_pool (he : e.inspectors = rules.map Rule.inspector)
    (hworkers : e.workers ≠ some 1) (clock : m τ) {deadline : τ}
    (hdeadline : Duration.le deadline Duration.zero = false) (source : Text)
    (hp : Pool.IsDistributed instructions rules p) {schedule : Schedule}
    (hschedule : ∀ id, id ∈ schedule e.ids ↔ id ∈ p.finished.map Prod.fst) : ∃ run : Run,
      e.run clock (some deadline) source instructions schedule = pure (.ok run) ∧
      run.report = reportOf e.ids (Duration.text deadline) source p.finished := by
  have hids : (rules.map Rule.id).Nodup := ids_of_inspectors he ▸ e.distinct
  have htime : ∀ limit ∈ some deadline, Duration.le limit Duration.zero = false := by
    rintro limit ⟨rfl⟩
    exact hdeadline
  have hdone (id : Text) : isDone (some deadline) (schedule e.ids) id = p.hasFinished id := by
    rw [Bool.eq_iff_iff, Pool.hasFinished_iff, ← hschedule id]
    exact List.contains_iff_mem
  obtain ⟨completed, hperm, hrun⟩ :=
    exists_run_threaded he hworkers clock htime source instructions schedule
  simp only [hdone] at hperm
  refine ⟨_, hrun, (reportOf_of_perm (nodup_fst_finished hids hp) ?_ _ _ source).symm⟩
  exact (Pool.perm_finished hids hp).trans hperm.symm

end Reporting

/--
A report depends only on which rules have finished. Whichever they are, and in whatever order they
did or are gone through, the report lists them as they were registered, each with its own findings,
and those that are left as skipped. So a run on threads with a deadline reports, whichever rules are
done when it passes and in whatever order, and so it is for all that a pool may come to when it is
looked at. A pool comes to its end, and what is reported then is what any engine without a deadline
reports, be it with one worker and without a pool.
-/
theorem report_of_pool {m : Type → Type} [Monad m] [LawfulMonad m] {τ : Type} [Duration τ]
    (e : Engine m) (rules : List Rule) (he : e.inspectors = rules.map Rule.inspector)
    (htimeout : timeoutId ∉ e.ids) (instructions : List Instruction) (source : Text) :
    (∀ (finished : Text → Bool) (completed : Completed) (limit : Text),
      completed.Perm ((rules.filter fun r => finished r.id).map (Rule.outcome instructions)) →
      Merges rules instructions finished limit (reportOf e.ids limit source completed)) ∧
    (e.workers ≠ some 1 → ∀ (clock : m τ) (deadline : τ),
      Duration.le deadline Duration.zero = false → ∀ schedule : Schedule, ∃ run : Run,
        e.run clock (some deadline) source instructions schedule = pure (.ok run) ∧
        Merges rules instructions (schedule e.ids).contains (Duration.text deadline) run.report) ∧
    ∀ (threads : Nat) (pool : Pool), Pool.Reaches threads instructions (Pool.submit rules) pool →
      (∀ (completed : Completed) (limit : Text), completed.Perm pool.finished →
        Merges rules instructions pool.hasFinished limit (reportOf e.ids limit source completed)) ∧
      (e.workers ≠ some 1 → ∀ (clock : m τ) (deadline : τ),
        Duration.le deadline Duration.zero = false → ∀ schedule : Schedule,
        (∀ id, id ∈ schedule e.ids ↔ id ∈ pool.finished.map Prod.fst) → ∃ run : Run,
          e.run clock (some deadline) source instructions schedule = pure (.ok run) ∧
          run.report = reportOf e.ids (Duration.text deadline) source pool.finished) ∧
      (0 < threads → ∃ last, Pool.Reaches threads instructions pool last ∧ last.IsIdle) ∧
      (pool.IsIdle → ∀ completed : Completed, completed.Perm pool.finished →
        ∀ (workers : Option Nat) (clock : m τ) (schedule : Schedule), ∃ log,
          ({ e with workers } : Engine m).run clock none source instructions schedule =
            (fun _ => .ok ⟨reportOf e.ids [] source completed, log⟩) <$> glance workers clock) := by
  have hnames := ids_of_inspectors he
  have hids : (rules.map Rule.id).Nodup := hnames ▸ e.distinct
  have hmerges : ∀ (finished : Text → Bool) (completed : Completed) (limit : Text),
      completed.Perm ((rules.filter fun r => finished r.id).map (Rule.outcome instructions)) →
      Merges rules instructions finished limit (reportOf e.ids limit source completed) := by
    rw [hnames] at htimeout ⊢
    exact fun finished completed limit hperm => merges_reportOf hids htimeout hperm limit source
  refine ⟨hmerges, fun hworkers clock deadline hdeadline schedule =>
    exists_merges_run he htimeout hworkers clock hdeadline source instructions schedule,
    fun threads pool hpool => ?_⟩
  have hdistributed := Pool.isDistributed_reaches hpool
  refine ⟨fun completed limit hperm => ?_, fun hworkers clock deadline hdeadline schedule =>
    exists_run_of_pool he hworkers clock hdeadline source hdistributed,
    fun hthreads => Pool.exists_isIdle hthreads pool,
    fun hidle completed hperm workers clock schedule => ?_⟩
  · exact hmerges _ completed limit (hperm.trans (Pool.perm_finished hids hdistributed))
  · have hall := hperm.trans (Pool.perm_of_isIdle hdistributed hidle)
    let other : Engine m := { e with workers }
    obtain ⟨done, hdone, hrun⟩ :=
      exists_run_untimed (e := other) he clock source instructions schedule
    rw [reportOf_of_perm (nodup_fst_of_perm hids hdone) (hdone.trans hall.symm)] at hrun
    exact ⟨_, hrun⟩

/-- Three threads and three rules: one fails, and the first does not finish in time. -/
theorem report_of_pool_of_slow_rule :
    ∃ (rules : List Rule) (pool : Pool) (e : Engine Id) (schedule : Schedule) (run : Run),
      rules.map Rule.id =
        (["specific-copy", "dockerignore-present", "non-root-user"] : List Text) ∧
      Pool.Reaches 3 [] (Pool.submit rules) pool ∧
      pool.finished.map Prod.fst = (["non-root-user", "dockerignore-present"] : List Text) ∧
      e.inspectors = rules.map Rule.inspector ∧ e.workers = some 3 ∧ timeoutId ∉ e.ids ∧
      schedule e.ids = pool.finished.map Prod.fst ∧
      e.run (pure (0 : Int)) (some 5) "<text>" [] schedule = pure (.ok run) ∧
      run.report = reportOf e.ids "5" "<text>" pool.finished ∧
      run.report.results.keys =
        (["dockerignore-present", "non-root-user", "timeout"] : List Text) ∧
      run.report.skipped = (["specific-copy"] : List Text) := by
  let unnamed : Rule := Rule.dockerignorePresent { dockerfile := some (Path.ofText "/") }
  let rules : List Rule := [Rule.specificCopy, unnamed, Rule.nonRootUser]
  let e : Engine Id := ⟨rules.map Rule.inspector, by decide, some 3⟩
  have htimeout : timeoutId ∉ e.ids := by decide
  have hworkers : e.workers ≠ some 1 := by decide
  have horder : ([Rule.nonRootUser, unnamed] ++ [Rule.specificCopy]).Perm rules :=
    List.reverse_perm rules
  obtain ⟨running, -, hpool⟩ : ∃ running : List Rule, running.Perm [Rule.specificCopy] ∧
      Pool.Reaches 3 [] (Pool.submit rules)
        ⟨[], running, [Rule.nonRootUser.outcome [], unnamed.outcome []]⟩ :=
    Pool.exists_reaches_of_order horder (Nat.le_refl 3)
  obtain ⟨hmerges, htimed, -⟩ :=
    (report_of_pool (τ := Int) e rules rfl htimeout [] "<text>").2.2 3 _ hpool
  let schedule : Schedule := fun _ => (["non-root-user", "dockerignore-present"] : List Text)
  obtain ⟨run, hrun, hreport⟩ := htimed hworkers (pure 0) 5 (by decide) schedule
    (fun _ => Iff.rfl)
  have h := hmerges _ "5" (List.Perm.refl _)
  have hkeys := congrArg (List.map Prod.fst) h.results
  exact ⟨rules, _, e, schedule, run, rfl, hpool, rfl, rfl, rfl, htimeout, rfl, hrun, hreport,
    hreport ▸ hkeys, hreport ▸ h.skipped⟩

end Drydock.Engine
