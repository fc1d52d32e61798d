/-
  Computations that may fail. One that succeeds in steps has succeeded in each of them
  (`exists_of_bind_eq_ok`), and one that goes through a list has done so at each member
  (`forall₂_of_mapM_eq_ok`) or failed at one of them (`exists_error_of_mapM`). One that has a state
  goes on from the state that it has come to (`run_bind`).
-/
import Mathlib.Data.List.Forall2

namespace Drydock

theorem exists_of_map_eq_ok {ε α β : Type} {f : α → β} {x : Except ε α} {b : β}
    (h : x.map f = .ok b) : ∃ a, x = .ok a ∧ f a = b := by
  cases x with
  | error e => exact absurd h (by simp [Except.map])
  | ok a => exact ⟨a, rfl, Except.ok.inj h⟩

theorem eq_error_of_map {ε α β : Type} {f : α → β} {x : Except ε α} {e : ε}
    (h : x.map f = .error e) : x = .error e := by
  cases x with
  | error e' => exact congrArg Except.error (Except.error.inj h)
  | ok a => exact absurd h (by simp [Except.map])

theorem exists_of_toOption_eq {ε α β : Type} {f : α → β} {x : Except ε α} {b : β}
    (h : x.toOption.map f = some b) : ∃ a, x = .ok a ∧ f a = b := by
  cases x with
  | error e => exact absurd h (by simp [Except.toOption])
  | ok a => exact ⟨a, rfl, Option.some.inj h⟩

theorem exists_of_bind_eq_ok {ε α β : Type} {x : Except ε α} {f : α → Except ε β} {b : β}
    (h : x >>= f = .ok b) : ∃ a, x = .ok a ∧ f a = .ok b := by
  cases x with
  | error e => exact absurd h (by simp [bind, Except.bind])
  | ok a => exact ⟨a, rfl, h⟩

theorem bind_eq_ok_iff {ε α β : Type} {x : Except ε α} {f : α → Except ε β} {b : β} :
    x >>= f = .ok b ↔ ∃ a, x = .ok a ∧ f a = .ok b :=
  ⟨exists_of_bind_eq_ok, fun ⟨_, hx, hf⟩ => by rw [hx]; exact hf⟩

/-- A computation in two steps fails in the first or, behind a result of that, in the second. -/
theorem bind_eq_error_iff {ε α β : Type} {x : Except ε α} {f : α → Except ε β} {e : ε} :
    x >>= f = .error e ↔ x = .error e ∨ ∃ a, x = .ok a ∧ f a = .error e := by
  cases x <;> simp [bind, Except.bind]

theorem forall₂_of_mapM_eq_ok {ε α β : Type} {f : α → Except ε β} {l : List α}
    {results : List β} (h : l.mapM f = .ok results) :
    List.Forall₂ (fun a b => f a = .ok b) l results := by
  induction l generalizing results with
  | nil =>
    obtain rfl := Except.ok.inj h
    exact List.Forall₂.nil
  | cons a l ih =>
    rw [List.mapM_cons] at h
    obtain ⟨b, hb, h⟩ := exists_of_bind_eq_ok h
    obtain ⟨bs, hbs, h⟩ := exists_of_bind_eq_ok h
    obtain rfl := Except.ok.inj h
    exact List.Forall₂.cons hb (ih hbs)

/-- What fails along a list fails at a member of it. -/
theorem exists_error_of_mapM {ε α β : Type} {f : α → Except ε β} {l : List α} {e : ε}
    (h : l.mapM f = .error e) : ∃ a ∈ l, f a = .error e := by
  induction l with
  | nil => exact absurd h (by simp [pure, Except.pure])
  | cons a l ih =>
    rw [List.mapM_cons] at h
    cases ha : f a with
    | error other =>
      rw [ha] at h
      obtain rfl := Except.error.inj h
      exact ⟨a, List.mem_cons_self, ha⟩
    | ok b =>
      cases hl : l.mapM f with
      | error other =>
        rw [ha, hl] at h
        obtain rfl := Except.error.inj h
        obtain ⟨c, hc, hfailed⟩ := ih hl
        exact ⟨c, List.mem_cons_of_mem _ hc, hfailed⟩
      | ok bs =>
        rw [ha, hl] at h
        exact absurd h (by simp [bind, Except.bind, pure, Except.pure])

/-- What fails along a list fails at a member of it, behind others at which it has not. -/
theorem foldlM_eq_error_iff {ε α β : Type} {f : β → α → Except ε β} {l : List α} {b : β} {e : ε} :
    l.foldlM f b = .error e ↔ ∃ front a back c,
      l = front ++ a :: back ∧ front.foldlM f b = .ok c ∧ f c a = .error e := by
  constructor
  · intro h
    induction l generalizing b with
    | nil => exact absurd h (by simp [pure, Except.pure])
    | cons a l ih =>
      rw [List.foldlM_cons] at h
      rcases bind_eq_error_iff.mp h with ha | ⟨next, ha, hrest⟩
      · exact ⟨[], a, l, b, rfl, rfl, ha⟩
      · obtain ⟨front, last, back, c, rfl, hfront, hlast⟩ := ih hrest
        refine ⟨a :: front, last, back, c, rfl, ?_, hlast⟩
        rw [List.foldlM_cons, ha]
        exact hfront
  · rintro ⟨front, a, back, c, rfl, hfront, ha⟩
    rw [List.foldlM_append, hfront]
    refine bind_eq_error_iff.mpr (Or.inr ⟨c, rfl, ?_⟩)
    rw [List.foldlM_cons, ha]
    rfl

/-- What succeeds at each member of a list succeeds along it. -/
theorem mapM_eq_ok {ε α β : Type} {f : α → Except ε β} {g : α → β} {l : List α}
    (h : ∀ a ∈ l, f a = .ok (g a)) : l.mapM f = .ok (l.map g) := by
  induction l with
  | nil => rfl
  | cons a l ih =>
    obtain ⟨ha, hl⟩ := List.forall_mem_cons.mp h
    rw [List.mapM_cons, ha, ih hl]
    rfl

/-- What comes to the same but for a change at each member of a list does so along it. -/
theorem mapM_eq_map {ε α β γ : Type} {f : α → Except ε γ} {g : α → Except ε β} {h : β → γ}
    {l : List α} (heq : ∀ a ∈ l, f a = (g a).map h) : l.mapM f = (l.mapM g).map (List.map h) := by
  induction l with
  | nil => rfl
  | cons a l ih =>
    obtain ⟨ha, hl⟩ := List.forall_mem_cons.mp heq
    rw [List.mapM_cons, List.mapM_cons, ha, ih hl]
    cases g a with
    | error e => rfl
    | ok b => cases l.mapM g <;> rfl

/-- Of two lists that are related member by member, a member of the second has one in the first. -/
theorem exists_left_of_forall₂ {α β : Type} {R : α → β → Prop} {l : List α} {u : List β}
    (h : List.Forall₂ R l u) {b : β} (hb : b ∈ u) : ∃ a ∈ l, R a b := by
  induction h with
  | nil => exact absurd hb List.not_mem_nil
  | cons hfirst _ ih =>
    rcases List.mem_cons.mp hb with rfl | hb
    · exact ⟨_, List.mem_cons_self, hfirst⟩
    · obtain ⟨a, ha, hR⟩ := ih hb
      exact ⟨a, List.mem_cons_of_mem _ ha, hR⟩

theorem exists_right_of_forall₂ {α β : Type} {R : α → β → Prop} {l : List α} {u : List β}
    (h : List.Forall₂ R l u) {a : α} (ha : a ∈ l) : ∃ b ∈ u, R a b :=
  exists_left_of_forall₂ h.flip ha

/-- A computation goes on from the state that the one before it has left, unless that one fails. -/
theorem run_bind {ε σ α β : Type} (x : ExceptT ε (StateM σ) α) (f : α → ExceptT ε (StateM σ) β)
    (s : σ) : (x >>= f).run s =
      match x.run s with
      | (.ok a, t) => (f a).run t
      | (.error e, t) => (.error e, t) := by
  unfold ExceptT.run
  simp only [bind, ExceptT.bind, ExceptT.mk, StateT.bind, ExceptT.bindCont]
  rcases x s with ⟨_ | _, t⟩ <;> rfl

theorem run_bind_of_ok {ε σ α β : Type} {x : ExceptT ε (StateM σ) α} {s t : σ} {a : α}
    (h : x.run s = (.ok a, t)) (f : α → ExceptT ε (StateM σ) β) :
    (x >>= f).run s = (f a).run t := by
  rw [run_bind, h]

theorem run_bind_of_error {ε σ α β : Type} {x : ExceptT ε (StateM σ) α} {s t : σ} {e : ε}
    (h : x.run s = (.error e, t)) (f : α → ExceptT ε (StateM σ) β) :
    (x >>= f).run s = (.error e, t) := by
  rw [run_bind, h]

end Drydock
