/-
  Sessions with engines: engines are created, rules are registered, and instructions and Dockerfiles
  are looked at, any of which may be refused. A constructor registers its rules one after the other
  with an engine that is not in use yet, so one that is refused half-way leaves a part of it aside
  (`run_create_of_repeats`). Every action goes through or leaves the engine in use as it is
  (`behaves_perform`); so the rules are always those of the last constructor that went through, and
  behind them those that were registered since (`rules_of_session`).
-/
import Drydock.Proofs.Engine.Deadline
import Drydock.Proofs.Engine.Findings

namespace Drydock

/-! ## Engines that are refused -/

namespace Engine

section Refusing

variable {m : Type → Type} {τ : Type} {e built : Engine m} {inspectors front : List (Inspector m)}
  {workers : Option Int} {error : EngineError τ}

theorem register_eq_error_iff {i : Inspector m} :
    e.register i = .error error ↔ i.id ∈ e.ids ∧ error = .duplicateRule i.id := by
  unfold register
  split
  · next h => simp [h, eq_comm]
  · next h => simp [h]

theorem inspectors_of_register {i : Inspector m}
    (h : (e.register i : Except (EngineError τ) (Engine m)) = .ok built) :
    built.inspectors = e.inspectors ++ [i] := by
  unfold register at h
  split at h
  · exact absurd h (by simp)
  · obtain rfl := Except.ok.inj h
    rfl

theorem eq_of_inspectors {e' : Engine m} (hinspectors : e.inspectors = e'.inspectors)
    (hworkers : e.workers = e'.workers) : e = e' := by
  cases e
  cases e'
  cases hinspectors
  cases hworkers
  rfl

/-- The rules that an engine has behind those of another can be registered with that. -/
theorem foldlM_register_eq_ok (hinspectors : built.inspectors = e.inspectors ++ inspectors)
    (hworkers : built.workers = e.workers) :
    inspectors.foldlM register e = (.ok built : Except (EngineError τ) (Engine m)) := by
  have hids : (e.ids ++ inspectors.map Inspector.id).Nodup := by
    rw [ids, ← List.map_append, ← hinspectors]
    exact built.distinct
  obtain ⟨other, hother, hcount⟩ := exists_foldlM_register (τ := τ) hids
  rw [hother, eq_of_inspectors ((inspectors_of_foldlM hother).trans hinspectors.symm)
    (hcount.trans hworkers.symm)]

/-- Behind rules no two of which have one name comes one that has the name of one of them. -/
def Repeats (inspectors front : List (Inspector m)) (id : Text) : Prop :=
  (front.map Inspector.id).Nodup ∧ id ∈ front.map Inspector.id ∧
    ∃ i back, inspectors = front ++ i :: back ∧ i.id = id

/-- Why an engine cannot be built: it would have no worker, or two rules of one name. -/
def RefusesToBuild (inspectors : List (Inspector m)) (workers : Option Int)
    (error : EngineError τ) : Prop :=
  (∃ count ∈ workers, count < 1 ∧ error = .tooFewWorkers count) ∨
    (∀ count ∈ workers, 1 ≤ count) ∧
      ∃ front id, Repeats inspectors front id ∧ error = .duplicateRule id

theorem build_eq_error_iff : (build inspectors workers : Except _ (Engine m)) = .error error ↔
    RefusesToBuild inspectors workers error := by
  constructor
  · intro h
    by_cases hworkers : ∀ count ∈ workers, 1 ≤ count
    · rw [build_of_one_le hworkers] at h
      obtain ⟨front, i, back, half, rfl, hfront, hi⟩ := foldlM_eq_error_iff.mp h
      obtain ⟨hid, rfl⟩ := register_eq_error_iff.mp hi
      have hinspectors : half.inspectors = front := inspectors_of_foldlM hfront
      have hdistinct := half.distinct
      rw [ids, hinspectors] at hid
      rw [hinspectors] at hdistinct
      exact Or.inr ⟨hworkers, front, i.id, ⟨hdistinct, hid, i, back, rfl, rfl⟩, rfl⟩
    · simp only [not_forall] at hworkers
      obtain ⟨count, rfl, hcount⟩ := hworkers
      have hfew : count < 1 := Int.not_le.mp hcount
      rw [build_of_lt_one hfew] at h
      exact Or.inl ⟨count, rfl, hfew, (Except.error.inj h).symm⟩
  · rintro (⟨count, hcount, hfew, rfl⟩ | ⟨hworkers, front, id, hrepeats, rfl⟩)
    · obtain rfl := hcount
      exact build_of_lt_one hfew
    · obtain ⟨hfront, hid, i, back, rfl, rfl⟩ := hrepeats
      rw [build_of_one_le hworkers]
      exact foldlM_eq_error_iff.mpr ⟨front, i, back, ⟨front, hfront, workers.map Int.toNat⟩, rfl,
        foldlM_register_eq_ok rfl rfl, register_eq_error_iff.mpr ⟨hid, rfl⟩⟩

end Refusing

end Engine

/-! ## Sessions -/

/-- A session: the engine in use, the one that is being built, and the world that rules act on. -/
structure Session (σ : Type) where
  engine : Engine (StateM σ)
  draft : Engine (StateM σ)
  world : σ

namespace Session

/-- What is done in a session; threads get on with each run in a way of its own. -/
inductive Action (σ τ : Type) where
  | create (inspectors : List (Inspector (StateM σ))) (workers : Option Int)
  | register (i : Inspector (StateM σ))
  | run (deadline : Option τ) (source : Text) (instructions : List Instruction)
    (schedule : Engine.Schedule)
  | analyze (deadline : Option τ) (source : Text) (d : Dockerfile) (schedule : Engine.Schedule)
  | analyzeText (deadline : Option τ) (source text : Text) (schedule : Engine.Schedule)

/-- Why something is refused. -/
inductive Refusal (τ : Type) where
  | engine (e : EngineError τ)
  | text (e : ParseError)

/-- What comes of an action: an engine with certain rules, or a run. -/
inductive Reply where
  | rules (ids : List Text)
  | ran (run : Engine.Run)

/-- Work in a session. What has changed before something is refused stays changed. -/
abbrev Work (σ τ : Type) := ExceptT (Refusal τ) (StateM (Session σ))

section Working

variable {σ τ : Type}

/-- Changes the session in a way that an engine may refuse. -/
def change (f : Session σ → Except (EngineError τ) (Session σ)) : Work σ τ Unit := do
  match f (← get) with
  | .ok s => set s
  | .error e => throw (.engine e)

/-- Tells the rules of the engine in use. -/
def tell : Work σ τ Reply := do
  let s ← get
  return .rules s.engine.ids

/-- Registers a rule with the engine that is being built. -/
def enlist (i : Inspector (StateM σ)) : Work σ τ Unit :=
  change fun s => (s.draft.register i).map fun draft => { s with draft }

/-- Begins to build an engine. -/
def start (workers : Option Int) : Work σ τ Unit :=
  change fun s => (Engine.checkWorkers workers).map fun n => { s with draft := .empty n }

/-- Builds an engine, which is in use as soon as it has all its rules. -/
def create (inspectors : List (Inspector (StateM σ))) (workers : Option Int) :
    Work σ τ Reply := do
  start workers
  forM inspectors enlist
  modify fun s => { s with engine := s.draft }
  tell

/-- Registers a rule with the engine in use. -/
def register (i : Inspector (StateM σ)) : Work σ τ Reply := do
  change fun s => (s.engine.register i).map fun engine => { s with engine }
  tell

/-- Has the engine in use look at something, while the world goes on. -/
def look (work : Engine (StateM σ) → StateM σ (Except (EngineError τ) Engine.Run)) :
    Work σ τ Reply := do
  let s ← get
  let (result, world) := work s.engine s.world
  set { s with world }
  match result with
  | .ok run => return .ran run
  | .error e => throw (.engine e)

/-- Does an action. -/
def perform [Duration τ] (clock : StateM σ τ) : Action σ τ → Work σ τ Reply
  | .create inspectors workers => create inspectors workers
  | .register i => register i
  | .run deadline source instructions schedule =>
    look (·.run clock deadline source instructions schedule)
  | .analyze deadline source d schedule => look (·.analyze clock deadline source d schedule)
  | .analyzeText deadline source text schedule =>
    match Dockerfile.parse text with
    | .error e => throw (.text e)
    | .ok d => look (·.analyze clock deadline source d schedule)

/-- Does one action after the other, also behind those that are refused. -/
def performAll [Duration τ] (clock : StateM σ τ) :
    List (Action σ τ) → StateM (Session σ) (List (Action σ τ × Except (Refusal τ) Reply))
  | [] => pure []
  | a :: rest => do
    let answer ← (perform clock a).run
    let events ← performAll clock rest
    return (a, answer) :: events

/-! ### Creating and registering -/

variable {s s' : Session σ} {e built : Engine (StateM σ)} {error : EngineError τ}
  {inspectors front : List (Inspector (StateM σ))} {workers : Option Int}

theorem run_change (f : Session σ → Except (EngineError τ) (Session σ)) (s : Session σ) :
    (change f).run s =
      match f s with
      | .ok s' => (.ok (), s')
      | .error e => (.error (.engine e), s) := by
  have hrun : (change f).run s = (match f s with
    | .ok s' => set s'
    | .error e => throw (.engine e) : Work σ τ Unit).run s := rfl
  rw [hrun]
  cases f s <;> rfl

theorem run_register (i : Inspector (StateM σ)) (s : Session σ) :
    (register i : Work σ τ Reply).run s =
      match (s.engine.register i : Except (EngineError τ) _) with
      | .ok engine => (.ok (.rules engine.ids), { s with engine })
      | .error e => (.error (.engine e), s) := by
  rw [register, run_bind, run_change]
  cases s.engine.register i <;> rfl

theorem run_enlist (i : Inspector (StateM σ)) (s : Session σ) :
    (enlist i : Work σ τ Unit).run s =
      match (s.draft.register i : Except (EngineError τ) _) with
      | .ok draft => (.ok (), { s with draft })
      | .error e => (.error (.engine e), s) := by
  rw [enlist, run_change]
  cases s.draft.register i <;> rfl

theorem run_enlist_of_ok {draft : Engine (StateM σ)}
    (h : inspectors.foldlM Engine.register s.draft = (.ok draft : Except (EngineError τ) _)) :
    (forM inspectors enlist : Work σ τ Unit).run s = (.ok (), { s with draft }) := by
  induction inspectors generalizing s with
  | nil =>
    obtain rfl := Except.ok.inj h
    rfl
  | cons i inspectors ih =>
    rw [List.foldlM_cons] at h
    obtain ⟨next, hnext, hrest⟩ := exists_of_bind_eq_ok h
    have hfirst : (enlist i : Work σ τ Unit).run s = (.ok (), { s with draft := next }) := by
      rw [run_enlist, hnext]
    rw [List.forM_cons, run_bind_of_ok hfirst]
    exact ih hrest

theorem run_start_of_one_le (h : ∀ count ∈ workers, 1 ≤ count) (s : Session σ) :
    (start workers : Work σ τ Unit).run s =
      (.ok (), { s with draft := .empty (workers.map Int.toNat) }) := by
  rw [start, run_change, Engine.checkWorkers_of_one_le h]
  rfl

/-- An engine that can be built is put to use. -/
theorem run_create_of_ok
    (h : (Engine.build inspectors workers : Except (EngineError τ) _) = .ok built)
    (s : Session σ) : (create inspectors workers : Work σ τ Reply).run s =
      (.ok (.rules built.ids), { s with engine := built, draft := built }) := by
  have hworkers := Engine.one_le_workers_of_build h
  rw [Engine.build_of_one_le hworkers] at h
  rw [create, run_bind_of_ok (run_start_of_one_le hworkers s), run_bind_of_ok (run_enlist_of_ok h)]
  rfl

theorem run_create_of_lt_one {count : Int} (h : count < 1) (s : Session σ) :
    (create inspectors (some count) : Work σ τ Reply).run s =
      (.error (.engine (.tooFewWorkers count)), s) := by
  have hstart : (start (some count) : Work σ τ Unit).run s =
      (.error (.engine (.tooFewWorkers count)), s) := by
    rw [start, run_change, Engine.checkWorkers_of_lt_one h]
    rfl
  rw [create, run_bind_of_error hstart]

/-- A constructor that comes to a name that is there already stops half-way. -/
theorem run_create_of_repeats {id : Text} (hworkers : ∀ count ∈ workers, 1 ≤ count)
    (h : Engine.Repeats inspectors front id) (s : Session σ) :
    ∃ half : Engine (StateM σ), half.inspectors = front ∧
      (create inspectors workers : Work σ τ Reply).run s =
        (.error (.engine (.duplicateRule id)), { s with draft := half }) := by
  obtain ⟨hfront, hid, i, back, rfl, rfl⟩ := h
  let half : Engine (StateM σ) := ⟨front, hfront, workers.map Int.toNat⟩
  have hhalf : front.foldlM Engine.register (.empty (workers.map Int.toNat)) =
      (.ok half : Except (EngineError τ) _) := Engine.foldlM_register_eq_ok rfl rfl
  have hrefused : half.register i = .error (.duplicateRule i.id : EngineError τ) :=
    Engine.register_eq_error_iff.mpr ⟨hid, rfl⟩
  have hlast : (enlist i : Work σ τ Unit).run { s with draft := half } =
      (.error (.engine (.duplicateRule i.id)), { s with draft := half }) := by
    rw [run_enlist, hrefused]
  let begun : Session σ := { s with draft := .empty (workers.map Int.toNat) }
  have hrules : (forM (front ++ i :: back) enlist : Work σ τ Unit).run begun =
      (.error (.engine (.duplicateRule i.id)), { s with draft := half }) := by
    have hgone := run_enlist_of_ok (s := begun) hhalf
    rw [List.forM_append, run_bind_of_ok hgone, List.forM_cons, run_bind_of_error hlast]
  refine ⟨half, rfl, ?_⟩
  rw [create, run_bind_of_ok (run_start_of_one_le hworkers s), run_bind_of_error hrules]

/-! ### What rules come down to -/

/-- The rules that an action gives to a constructor. -/
def Action.made? : Action σ τ → Option (List (Inspector (StateM σ)))
  | .create inspectors _ => some inspectors
  | _ => none

/-- The rule that an action registers. -/
def Action.added? : Action σ τ → Option (Inspector (StateM σ))
  | .register i => some i
  | _ => none

/-- The actions that went through, of those that were answered. -/
def succeeded (events : List (Action σ τ × Except (Refusal τ) Reply)) : List (Action σ τ) :=
  (events.filter fun event => event.2.isOk).map Prod.fst

/-- Of actions that went through, these came behind the last constructor, which was given certain
rules; if there was none, these are all and the rules are those of the engine before them. -/
def IsSince (given : List (Inspector (StateM σ))) (actions : List (Action σ τ))
    (made : List (Inspector (StateM σ))) (since : List (Action σ τ)) : Prop :=
  (∀ a ∈ since, a.made? = none) ∧
    (actions = since ∧ made = given ∨
      ∃ before last, last.made? = some made ∧ actions = before ++ last :: since)

/-- Rules are those that the last constructor was given, and behind them those registered since. -/
def Stem (given : List (Inspector (StateM σ))) (actions : List (Action σ τ))
    (rules : List (Inspector (StateM σ))) : Prop :=
  ∃ made since, IsSince given actions made since ∧ rules = made ++ since.filterMap Action.added?

theorem stem_nil (given : List (Inspector (StateM σ))) :
    Stem given ([] : List (Action σ τ)) given :=
  ⟨given, [], ⟨nofun, Or.inl ⟨rfl, rfl⟩⟩, (List.append_nil given).symm⟩

theorem added?_of_made? {a : Action σ τ} {inspectors : List (Inspector (StateM σ))}
    (h : a.made? = some inspectors) : a.added? = none := by
  cases a with
  | create inspectors workers => rfl
  | _ => exact nomatch h

theorem toList_append_filterMap {α β : Type} (f : α → Option β) (a : α) (l : List α) :
    (f a).toList ++ l.filterMap f = (a :: l).filterMap f := by
  cases h : f a <;> simp [h]

/-- An action in front of others changes the rules that they begin with. -/
theorem stem_cons {given rules : List (Inspector (StateM σ))} {a : Action σ τ}
    {actions : List (Action σ τ)}
    (h : Stem (a.made?.getD given ++ a.added?.toList) actions rules) :
    Stem given (a :: actions) rules := by
  obtain ⟨made, since, ⟨hsince, hmade⟩, hrules⟩ := h
  rcases hmade with ⟨rfl, rfl⟩ | ⟨before, last, hlast, rfl⟩
  · cases hconstructor : a.made? with
    | none =>
      refine ⟨given, a :: actions, ⟨List.forall_mem_cons.mpr ⟨hconstructor, hsince⟩,
        Or.inl ⟨rfl, rfl⟩⟩, ?_⟩
      rw [hrules, hconstructor, Option.getD_none, List.append_assoc, toList_append_filterMap]
    | some inspectors =>
      refine ⟨inspectors, actions, ⟨hsince, Or.inr ⟨[], a, hconstructor, rfl⟩⟩, ?_⟩
      rw [hrules, hconstructor, Option.getD_some, added?_of_made? hconstructor,
        Option.toList_none, List.append_nil]
  · exact ⟨made, since, ⟨hsince, Or.inr ⟨a :: before, last, hlast, rfl⟩⟩, hrules⟩

/-! ### Looking -/

theorem run_look (work : Engine (StateM σ) → StateM σ (Except (EngineError τ) Engine.Run))
    (s : Session σ) : (look work).run s =
      match work s.engine s.world with
      | (.ok run, world) => (.ok (.ran run), { s with world })
      | (.error e, world) => (.error (.engine e), { s with world }) := by
  have hrun : (look work).run s = (match (work s.engine s.world).1 with
    | .ok run => return .ran run
    | .error e => throw (.engine e) : Work σ τ Reply).run
      { s with world := (work s.engine s.world).2 } := rfl
  rw [hrun]
  rcases work s.engine s.world with ⟨_ | _, world⟩ <;> rfl

variable [Duration τ]

/-- The reason to refuse something is that its deadline leaves no time. -/
def IsSpent (deadline : Option τ) (reason : Refusal τ) : Prop :=
  ∃ limit ∈ deadline, Duration.le limit Duration.zero = true ∧
    reason = .engine (.deadlineNotPositive limit)

/-- Work is done in time, or refused at once just if its deadline leaves no time. -/
def GoesBy (deadline : Option τ) (work : StateM σ (Except (EngineError τ) Engine.Run)) : Prop :=
  ∀ world,
    (∃ limit ∈ deadline, Duration.le limit Duration.zero = true ∧
      work world = (.error (.deadlineNotPositive limit), world)) ∨
    (∀ limit ∈ deadline, Duration.le limit Duration.zero = false) ∧
      ∃ run world', work world = (.ok run, world')

theorem goesBy_run (e : Engine (StateM σ)) (clock : StateM σ τ) (deadline : Option τ)
    (source : Text) (instructions : List Instruction) (schedule : Engine.Schedule) :
    GoesBy deadline (e.run clock deadline source instructions schedule) := by
  intro world
  cases hspent : deadline.filter fun d => Duration.le d Duration.zero with
  | some limit =>
    obtain ⟨hlimit, hle⟩ := Option.filter_eq_some_iff.mp hspent
    refine Or.inl ⟨limit, hlimit, hle, ?_⟩
    rw [Engine.run, hspent]
    rfl
  | none =>
    have htime : ∀ limit ∈ deadline, Duration.le limit Duration.zero = false := by
      simpa using Option.filter_eq_none_iff.mp hspent
    refine Or.inr ⟨htime, ?_⟩
    rw [Engine.run_eq_map_complete e clock htime]
    exact ⟨_, _, rfl⟩

theorem GoesBy.map {deadline : Option τ} {work : StateM σ (Except (EngineError τ) Engine.Run)}
    (h : GoesBy deadline work) (f : Engine.Run → Engine.Run) :
    GoesBy deadline (Except.map f <$> work) := by
  intro world
  have hmap : (Except.map f <$> work) world = ((work world).1.map f, (work world).2) := rfl
  rw [hmap]
  refine (h world).imp ?_ ?_
  · rintro ⟨limit, hlimit, hle, hwork⟩
    exact ⟨limit, hlimit, hle, by rw [hwork]; rfl⟩
  · rintro ⟨htime, run, world', hwork⟩
    exact ⟨htime, f run, world', by rw [hwork]; rfl⟩

theorem goesBy_analyze (e : Engine (StateM σ)) (clock : StateM σ τ) (deadline : Option τ)
    (source : Text) (d : Dockerfile) (schedule : Engine.Schedule) :
    GoesBy deadline (e.analyze clock deadline source d schedule) := by
  rw [Engine.analyze, bind_pure_comp]
  exact (goesBy_run e clock deadline source d.instructions schedule).map _

theorem isSpent_iff {deadline : Option τ} {limit : τ} (hlimit : limit ∈ deadline)
    (hle : Duration.le limit Duration.zero = true) {reason : Refusal τ} :
    IsSpent deadline reason ↔ reason = .engine (.deadlineNotPositive limit) := by
  obtain rfl := hlimit
  simp [IsSpent, hle]

theorem not_isSpent {deadline : Option τ}
    (h : ∀ limit ∈ deadline, Duration.le limit Duration.zero = false) (reason : Refusal τ) :
    ¬IsSpent deadline reason :=
  fun ⟨limit, hlimit, hle, _⟩ => absurd hle (by simp [h limit hlimit])

/-! ### What an action does -/

/-- Why an action is refused in a session with a certain engine. -/
def Refuses (e : Engine (StateM σ)) (reason : Refusal τ) : Action σ τ → Prop
  | .create inspectors workers =>
    ∃ error, Engine.RefusesToBuild inspectors workers error ∧ reason = .engine error
  | .register i => i.id ∈ e.ids ∧ reason = .engine (.duplicateRule i.id)
  | .run deadline _ _ _ => IsSpent deadline reason
  | .analyze deadline _ _ _ => IsSpent deadline reason
  | .analyzeText deadline _ text _ =>
    (∃ error, Dockerfile.parse text = .error error ∧ reason = .text error) ∨
      (∃ d, Dockerfile.parse text = .ok d) ∧ IsSpent deadline reason

/--
An action is refused just if there is a reason to, and then at most an engine that is being built
has changed. If it goes through, the engine in use has the rules that a constructor was given, or
its own, and behind them a rule that was registered; if rules are told, then all of them, in order.
If it only looks, at most the world changes.
-/
structure Behaves (s : Session σ) (a : Action σ τ) (left : Except (Refusal τ) Reply × Session σ) :
    Prop where
  refused : ∀ reason, left.1 = .error reason ↔ Refuses s.engine reason a
  kept : ∀ reason, left.1 = .error reason → ∃ draft, left.2 = { s with draft }
  rules : ∀ reply, left.1 = .ok reply → left.2.engine.inspectors =
    a.made?.getD s.engine.inspectors ++ a.added?.toList
  told : ∀ ids, left.1 = .ok (.rules ids) → ids = left.2.engine.ids
  looked : a.made? = none → a.added? = none → ∃ world, left.2 = { s with world }

theorem behaves_create (inspectors : List (Inspector (StateM σ))) (workers : Option Int)
    (s : Session σ) :
    Behaves s (.create inspectors workers : Action σ τ) ((create inspectors workers).run s) := by
  cases hbuild : (Engine.build inspectors workers : Except (EngineError τ) _) with
  | ok built =>
    rw [run_create_of_ok hbuild]
    exact
      { refused := fun reason => ⟨nofun, fun ⟨error, hrefuses, _⟩ =>
          absurd (hbuild.symm.trans (Engine.build_eq_error_iff.mpr hrefuses)) (by simp)⟩
        kept := nofun
        rules := fun _ _ => (Engine.inspectors_of_build hbuild).trans (List.append_nil _).symm
        told := fun _ h => (Reply.rules.inj (Except.ok.inj h)).symm
        looked := nofun }
  | error error =>
    have hreasons (other : EngineError τ) :
        Engine.RefusesToBuild inspectors workers other ↔ other = error := by
      rw [← Engine.build_eq_error_iff, hbuild, Except.error.injEq, eq_comm]
    have hstopped : ∃ draft, (create inspectors workers : Work σ τ Reply).run s =
        (.error (.engine error), { s with draft }) := by
      rcases Engine.build_eq_error_iff.mp hbuild with
        ⟨count, hcount, hfew, rfl⟩ | ⟨hworkers, front, id, hrepeats, rfl⟩
      · obtain rfl := hcount
        exact ⟨s.draft, run_create_of_lt_one hfew s⟩
      · obtain ⟨half, -, hrun⟩ := run_create_of_repeats (τ := τ) hworkers hrepeats s
        exact ⟨half, hrun⟩
    obtain ⟨draft, hrun⟩ := hstopped
    rw [hrun]
    exact
      { refused := fun reason => by simp [Refuses, hreasons, eq_comm]
        kept := fun _ _ => ⟨draft, rfl⟩
        rules := nofun
        told := nofun
        looked := nofun }

theorem behaves_register (i : Inspector (StateM σ)) (s : Session σ) :
    Behaves s (.register i : Action σ τ) ((register i).run s) := by
  rw [run_register]
  cases hregister : (s.engine.register i : Except (EngineError τ) _) with
  | ok engine =>
    exact
      { refused := fun reason => ⟨nofun, fun ⟨hid, _⟩ => by
          have herror := Engine.register_eq_error_iff (τ := τ) (e := s.engine).mpr ⟨hid, rfl⟩
          exact absurd (hregister.symm.trans herror) (by simp)⟩
        kept := nofun
        rules := fun _ _ => Engine.inspectors_of_register hregister
        told := fun _ h => (Reply.rules.inj (Except.ok.inj h)).symm
        looked := nofun }
  | error error =>
    obtain ⟨hid, rfl⟩ := Engine.register_eq_error_iff.mp hregister
    exact
      { refused := fun reason =>
          ⟨fun h => ⟨hid, (Except.error.inj h).symm⟩, fun ⟨_, hreason⟩ => by rw [hreason]⟩
        kept := fun _ _ => ⟨s.draft, rfl⟩
        rules := nofun
        told := nofun
        looked := nofun }

/-- Work that goes by a deadline, for an action that is refused by that deadline only. -/
theorem behaves_look {a : Action σ τ} (deadline : Option τ)
    {work : Engine (StateM σ) → StateM σ (Except (EngineError τ) Engine.Run)} {s : Session σ}
    (hmade : a.made? = none) (hadded : a.added? = none)
    (hrefuses : ∀ reason, Refuses s.engine reason a ↔ IsSpent deadline reason)
    (hwork : GoesBy deadline (work s.engine)) : Behaves s a ((look work).run s) := by
  rw [run_look]
  rcases hwork s.world with ⟨limit, hlimit, hle, hspent⟩ | ⟨htime, run, world, hdone⟩
  · rw [hspent]
    exact
      { refused := fun reason => by
          rw [hrefuses, isSpent_iff hlimit hle, Except.error.injEq, eq_comm]
        kept := fun _ _ => ⟨s.draft, rfl⟩
        rules := nofun
        told := nofun
        looked := fun _ _ => ⟨s.world, rfl⟩ }
  · rw [hdone]
    exact
      { refused := fun reason => by
          rw [hrefuses, iff_false_right (not_isSpent htime reason)]
          exact nofun
        kept := nofun
        rules := fun _ _ => by
          rw [hmade, hadded, Option.getD_none, Option.toList_none, List.append_nil]
        told := nofun
        looked := fun _ _ => ⟨world, rfl⟩ }

theorem behaves_perform (clock : StateM σ τ) (a : Action σ τ) (s : Session σ) :
    Behaves s a ((perform clock a).run s) := by
  cases a with
  | create inspectors workers => exact behaves_create inspectors workers s
  | register i => exact behaves_register i s
  | run deadline source instructions schedule =>
    rw [perform]
    exact behaves_look deadline rfl rfl (fun _ => Iff.rfl)
      (goesBy_run s.engine clock deadline source instructions schedule)
  | analyze deadline source d schedule =>
    rw [perform]
    exact behaves_look deadline rfl rfl (fun _ => Iff.rfl)
      (goesBy_analyze s.engine clock deadline source d schedule)
  | analyzeText deadline source text schedule =>
    rw [perform]
    cases hparse : Dockerfile.parse text with
    | error error =>
      have hstopped : (throw (.text error) : Work σ τ Reply).run s =
          (.error (.text error), s) := rfl
      rw [hstopped]
      exact
        { refused := fun reason => by simp [Refuses, hparse, eq_comm]
          kept := fun _ _ => ⟨s.draft, rfl⟩
          rules := nofun
          told := nofun
          looked := fun _ _ => ⟨s.world, rfl⟩ }
    | ok d =>
      exact behaves_look deadline rfl rfl (fun reason => by simp [Refuses, hparse])
        (goesBy_analyze s.engine clock deadline source d schedule)

/-! ### Whole sessions -/

theorem performAll_cons (clock : StateM σ τ) (a : Action σ τ) (actions : List (Action σ τ))
    (s : Session σ) : performAll clock (a :: actions) s =
      ((a, ((perform clock a).run s).1) :: (performAll clock actions ((perform clock a).run s).2).1,
        (performAll clock actions ((perform clock a).run s).2).2) := rfl

theorem map_fst_performAll (clock : StateM σ τ) (actions : List (Action σ τ)) (s : Session σ) :
    (performAll clock actions s).1.map Prod.fst = actions := by
  induction actions generalizing s with
  | nil => rfl
  | cons a actions ih => rw [performAll_cons, List.map_cons, ih]

theorem stem_performAll (clock : StateM σ τ) (actions : List (Action σ τ)) (s : Session σ) :
    Stem s.engine.inspectors (succeeded (performAll clock actions s).1)
      (performAll clock actions s).2.engine.inspectors := by
  induction actions generalizing s with
  | nil => exact stem_nil _
  | cons a actions ih =>
    -- The others begin with the rules that the first one leaves.
    have hstep := behaves_perform clock a s
    rw [performAll_cons]
    generalize (perform clock a).run s = left at hstep
    obtain ⟨answer, s'⟩ := left
    have hrest := ih s'
    cases answer with
    | error reason =>
      obtain ⟨draft, rfl⟩ := hstep.kept reason rfl
      exact hrest
    | ok reply =>
      rw [hstep.rules reply rfl] at hrest
      exact stem_cons hrest

/--
At any point of a session the names of the rules are distinct, and the rules are those that the last
constructor that went through was given, be it the one before the session, and behind them those
that were registered since, in order. Whatever is done next goes through or changes nothing but an
engine that is not in use, and what only looks changes no engine at all.
-/
theorem rules_of_session {given : List (Inspector (StateM σ))} {workers : Option Int}
    {s s' : Session σ} {clock : StateM σ τ} {actions : List (Action σ τ)}
    {events : List (Action σ τ × Except (Refusal τ) Reply)}
    (hgiven : Engine.build given workers = (.ok s.engine : Except (EngineError τ) _))
    (hevents : performAll clock actions s = (events, s')) :
    events.map Prod.fst = actions ∧ s'.engine.ids.Nodup ∧
      Stem given (succeeded events) s'.engine.inspectors ∧
      ∀ a : Action σ τ, Behaves s' a ((perform clock a).run s') := by
  obtain ⟨rfl, rfl⟩ := Prod.mk.inj hevents
  refine ⟨map_fst_performAll clock actions s, Engine.distinct _, ?_,
    fun a => behaves_perform clock a _⟩
  rw [← Engine.inspectors_of_build hgiven]
  exact stem_performAll clock actions s

/-- Refusals on the way: a constructor that stops half-way, a name that is there already, no worker,
a deadline that leaves no time, and a Dockerfile that cannot be parsed. -/
theorem rules_of_session_with_refusals :
    ∃ (given : List (Inspector (StateM Int))) (s s' : Session Int) (actions : List (Action Int Int))
      (events : List (Action Int Int × Except (Refusal Int) Reply)),
      Engine.build given none = (.ok s.engine : Except (EngineError Int) _) ∧
      performAll get actions s = (events, s') ∧
      events.map (fun event => event.2.isOk) =
        [false, false, false, true, true, false, false, true] ∧
      s'.draft.ids = (["c"] : List Text) ∧ s'.engine.ids = (["c", "d"] : List Text) ∧
      s'.engine.ids.Nodup ∧ Stem given (succeeded events) s'.engine.inspectors := by
  let named (id : Text) : Inspector (StateM Int) :=
    ⟨id, fun _ => do
      modify (· + 1)
      return .ok []⟩
  let given := [named "a", named "b"]
  let engine : Engine (StateM Int) := ⟨given, by decide, none⟩
  let actions : List (Action Int Int) :=
    [.create [named "x", named "y", named "x"] none, .register (named "a"), .create given (some 0),
      .create [named "c"] none, .register (named "d"), .run (some 0) "<text>" [] id,
      .analyzeText none "<text>" "FROM" id, .run (some 5) "<text>" [] List.reverse]
  have hgiven : Engine.build given none = (.ok engine : Except (EngineError Int) _) := rfl
  let s : Session Int := ⟨engine, .empty none, 0⟩
  have hleft : performAll get actions s =
      ((performAll get actions s).1, (performAll get actions s).2) := Prod.mk.eta.symm
  obtain ⟨-, hdistinct, hstem, -⟩ := rules_of_session hgiven hleft
  exact ⟨given, s, _, actions, _, hgiven, hleft, by decide +kernel, by decide +kernel,
    by decide +kernel, hdistinct, hstem⟩

end Working

end Session

end Drydock
