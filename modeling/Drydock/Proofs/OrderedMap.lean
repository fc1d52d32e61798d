/-
  Maps made from lists. A key stands where it first comes (`keys_ofList`) and has the value that
  comes last with it (`get?_ofList`), so whatever is in such a map is in the list
  (`mem_of_get?_ofList`). A new key goes to the end (`entries_insert_of_not_mem`), so a list in
  which no key comes twice is the map made from it (`entries_ofList`). An old key loses the value
  that it had, and no other value is lost (`weight_insert`, `weight_insertAll`). Other values at the
  same keys may be given before or after the map is made (`mapValues_ofList`).
-/
import Drydock.OrderedMap
import Mathlib.Algebra.BigOperators.Group.List.Basic
import Mathlib.Data.List.Induction
import Mathlib.Data.List.Nodup
import Mathlib.Tactic.Abel

namespace Drydock.OrderedMap

variable {κ : Type u} {α : Type v} [DecidableEq κ]

/-! ## Looking up -/

/-- What a key has is found by membership, since no other entry has the key. -/
theorem get?_eq_some_iff {m : OrderedMap κ α} {k : κ} {v : α} :
    m.get? k = some v ↔ (k, v) ∈ m.entries := by
  constructor
  · intro h
    obtain ⟨e, he, rfl⟩ := Option.map_eq_some_iff.mp h
    have hkey : e.1 = k := by simpa using List.find?_some he
    rw [← hkey]
    exact List.mem_of_find?_eq_some he
  · intro h
    have hfound : (m.entries.find? fun e => e.1 = k).isSome :=
      List.find?_isSome.mpr ⟨_, h, by simp⟩
    obtain ⟨e, he⟩ := Option.isSome_iff_exists.mp hfound
    have hkey : e.1 = k := by simpa using List.find?_some he
    have hsame : e = (k, v) :=
      List.inj_on_of_nodup_map m.distinct (List.mem_of_find?_eq_some he) h hkey
    rw [get?, he, hsame]
    rfl

theorem ofList_append_singleton (es : List (κ × α)) (e : κ × α) :
    ofList (es ++ [e]) = (ofList es).insert e.1 e.2 :=
  List.foldl_append

/-- In a map made from a list, a key has the value that comes last with it. -/
theorem get?_ofList (es : List (κ × α)) (k : κ) :
    (ofList es).get? k = (es.filter fun e => e.1 = k).getLast?.map Prod.snd := by
  induction es using List.reverseRecOn with
  | nil => rfl
  | append_singleton es e ih =>
    rw [ofList_append_singleton, get?_insert, ih, List.filter_append, List.getLast?_append]
    by_cases hk : e.1 = k <;> simp [hk]

/-- In a map made from a list, a key stands where it first comes. -/
theorem keys_ofList [BEq κ] [LawfulBEq κ] (es : List (κ × α)) :
    (ofList es).keys = (es.map Prod.fst).eraseDups := by
  induction es using List.reverseRecOn with
  | nil => rfl
  | append_singleton es e ih =>
    rw [ofList_append_singleton, keys_insert, ih, List.map_append, List.eraseDups_append,
      List.map_singleton]
    by_cases hk : e.1 ∈ es.map Prod.fst
    · simp [hk, List.removeAll]
    · simp [hk, List.removeAll, List.eraseDups_cons]

/-- Where all entries of a map are inserted, its values go before the old ones. -/
theorem get?_insertAll (m n : OrderedMap κ α) (k : κ) :
    (m.insertAll n.entries).get? k = (n.get? k).or (m.get? k) := by
  obtain ⟨es, hes⟩ := n
  induction es generalizing m with
  | nil => rfl
  | cons e es ih =>
    obtain ⟨hfresh, hrest⟩ := List.nodup_cons.mp hes
    have hothers := ih (m.insert e.1 e.2) hrest
    rw [get?_insert] at hothers
    refine hothers.trans ?_
    by_cases hk : e.1 = k
    · have hnone : es.find? (fun e => e.1 = k) = none := by
        refine List.find?_eq_none.mpr fun e' he' hkey => hfresh ?_
        rw [hk, ← of_decide_eq_true hkey]
        exact List.mem_map_of_mem he'
      simp [get?, hk, hnone]
    · simp [get?, hk]

/-! ## Other values -/

section Values

variable {β : Type w}

/-- An entry with another value. -/
def withValue (f : α → β) (e : κ × α) : κ × β := (e.1, f e.2)

/-- The map with other values at the same keys. -/
def mapValues (f : α → β) (m : OrderedMap κ α) : OrderedMap κ β :=
  ⟨m.entries.map (withValue f), by
    rw [List.map_map]
    exact m.distinct⟩

theorem contains_mapValues (f : α → β) (m : OrderedMap κ α) (k : κ) :
    (m.mapValues f).contains k = m.contains k := by
  show (m.entries.map (withValue f)).any _ = _
  rw [List.any_map]
  rfl

theorem get?_mapValues (f : α → β) (m : OrderedMap κ α) (k : κ) :
    (m.mapValues f).get? k = (m.get? k).map f := by
  show ((m.entries.map (withValue f)).find? _).map Prod.snd = _
  rw [List.find?_map, Option.map_map, get?, Option.map_map]
  rfl

theorem erase_mapValues (f : α → β) (m : OrderedMap κ α) (k : κ) :
    (m.mapValues f).erase k = (m.erase k).mapValues f := by
  refine ext ?_
  show (m.entries.map (withValue f)).filter _ = (m.entries.filter _).map (withValue f)
  rw [List.filter_map]
  rfl

theorem insertEntry_map (f : α → β) (k : κ) (v : α) (es : List (κ × α)) :
    insertEntry k (f v) (es.map (withValue f)) = (insertEntry k v es).map (withValue f) := by
  induction es with
  | nil => rfl
  | cons e es ih =>
    have hkey : (withValue f e).1 = e.1 := rfl
    rw [List.map_cons, insertEntry, insertEntry, ih, hkey]
    by_cases hk : e.1 = k
    · rw [if_pos hk, if_pos hk]
      rfl
    · rw [if_neg hk, if_neg hk, List.map_cons]

theorem insert_mapValues (f : α → β) (m : OrderedMap κ α) (k : κ) (v : α) :
    (m.mapValues f).insert k (f v) = (m.insert k v).mapValues f :=
  ext (insertEntry_map f k v m.entries)

theorem mapValues_ofList (f : α → β) (es : List (κ × α)) :
    (ofList es).mapValues f = ofList (es.map (withValue f)) := by
  induction es using List.reverseRecOn with
  | nil => rfl
  | append_singleton es e ih =>
    rw [List.map_append, List.map_singleton, ofList_append_singleton, ofList_append_singleton, ← ih]
    exact (insert_mapValues f _ _ _).symm

end Values

/-! ## Nothing else -/

theorem mem_of_mem_insertEntry {k : κ} {v : α} {es : List (κ × α)} {e : κ × α}
    (h : e ∈ insertEntry k v es) : e = (k, v) ∨ e ∈ es := by
  induction es with
  | nil => exact Or.inl (List.mem_singleton.mp h)
  | cons first es ih =>
    rw [insertEntry] at h
    split at h
    · exact (List.mem_cons.mp h).imp_right (List.mem_cons_of_mem _)
    · rcases List.mem_cons.mp h with rfl | h
      · exact Or.inr List.mem_cons_self
      · exact (ih h).imp_right (List.mem_cons_of_mem _)

theorem mem_of_mem_insertAll {m : OrderedMap κ α} {es : List (κ × α)} {e : κ × α}
    (h : e ∈ (m.insertAll es).entries) : e ∈ m.entries ∨ e ∈ es := by
  induction es generalizing m with
  | nil => exact Or.inl h
  | cons first es ih =>
    rw [insertAll, List.foldl_cons] at h
    rcases ih h with h | h
    · rcases mem_of_mem_insertEntry h with rfl | h
      · exact Or.inr List.mem_cons_self
      · exact Or.inl h
    · exact Or.inr (List.mem_cons_of_mem _ h)

/-- What a map made from a list gives for a key is in the list with that key. -/
theorem mem_of_get?_ofList {es : List (κ × α)} {k : κ} {v : α} (h : (ofList es).get? k = some v) :
    (k, v) ∈ es := by
  rcases mem_of_mem_insertAll (get?_eq_some_iff.mp h) with hnone | hmem
  · exact absurd hnone List.not_mem_nil
  · exact hmem

/-! ## New keys -/

theorem insertEntry_of_not_mem {k : κ} {es : List (κ × α)} (h : k ∉ es.map Prod.fst) (v : α) :
    insertEntry k v es = es ++ [(k, v)] := by
  induction es with
  | nil => rfl
  | cons e es ih =>
    rw [List.map_cons, List.mem_cons, not_or] at h
    rw [insertEntry, if_neg (Ne.symm h.1), ih h.2, List.cons_append]

theorem entries_insert_of_not_mem {m : OrderedMap κ α} {k : κ} (h : k ∉ m.keys) (v : α) :
    (m.insert k v).entries = m.entries ++ [(k, v)] :=
  insertEntry_of_not_mem h v

theorem entries_insertAll {m : OrderedMap κ α} {es : List (κ × α)}
    (h : ((m.entries ++ es).map Prod.fst).Nodup) : (m.insertAll es).entries = m.entries ++ es := by
  induction es generalizing m with
  | nil => exact (List.append_nil _).symm
  | cons e es ih =>
    have hnew : e.1 ∉ m.keys := by
      rw [List.map_append, List.map_cons] at h
      exact fun hold => (List.nodup_append.mp h).2.2 e.1 hold e.1 List.mem_cons_self rfl
    have hentries := entries_insert_of_not_mem hnew e.2
    rw [insertAll, List.foldl_cons]
    have hall := ih (m := m.insert e.1 e.2) (by rwa [hentries, List.append_assoc])
    rwa [hentries, List.append_assoc] at hall

/-- A map made from entries no two of which have one key holds these entries. -/
theorem entries_ofList {es : List (κ × α)} (h : (es.map Prod.fst).Nodup) :
    (ofList es).entries = es :=
  entries_insertAll (m := empty) h

/-! ## Erasing -/

/-- An entry and what is left without its key are all entries. -/
theorem perm_erase {m : OrderedMap κ α} {k : κ} {v : α} (h : (k, v) ∈ m.entries) :
    ((k, v) :: (m.erase k).entries).Perm m.entries := by
  obtain ⟨front, back, hentries⟩ := List.append_of_mem h
  have hdistinct := m.distinct
  rw [hentries, List.map_append, List.map_cons, List.nodup_middle, List.nodup_cons,
    ← List.map_append] at hdistinct
  have hothers : (m.erase k).entries = front ++ back := by
    show m.entries.filter _ = _
    rw [hentries, List.filter_append, List.filter_cons_of_neg (by simp), ← List.filter_append]
    refine List.filter_eq_self.mpr fun e he => decide_eq_true fun hk => hdistinct.1 ?_
    have hkey : e.1 ∈ (front ++ back).map Prod.fst := List.mem_map_of_mem he
    exact hk ▸ hkey
  rw [hothers, hentries]
  exact List.perm_middle.symm

/-! ## Weighing all values -/

section Weights

variable {M : Type w} [AddCommMonoid M] (f : α → M)

/-- What the values of entries weigh together. -/
def weight (es : List (κ × α)) : M := (es.map fun e => f e.2).sum

omit [DecidableEq κ] in
@[simp] theorem weight_nil : weight f ([] : List (κ × α)) = 0 := rfl

omit [DecidableEq κ] in
@[simp] theorem weight_cons (e : κ × α) (es : List (κ × α)) :
    weight f (e :: es) = f e.2 + weight f es :=
  List.sum_cons

theorem weight_insertEntry (k : κ) (v : α) (es : List (κ × α)) :
    weight f (insertEntry k v es) + ((es.find? fun e => e.1 = k).map Prod.snd).elim 0 f =
      weight f es + f v := by
  induction es with
  | nil => simp [insertEntry]
  | cons e es ih =>
    by_cases h : e.1 = k
    · simp only [insertEntry, h, if_true, weight_cons, List.find?_cons, decide_true,
        Option.map_some, Option.elim_some]
      abel
    · simp only [insertEntry, h, if_false, weight_cons, List.find?_cons, decide_false]
      rw [add_assoc, ih, add_assoc]

/-- The new value is added, and the old value of the key is lost. -/
theorem weight_insert (m : OrderedMap κ α) (k : κ) (v : α) :
    weight f (m.insert k v).entries + (m.get? k).elim 0 f = weight f m.entries + f v :=
  weight_insertEntry f k v m.entries

/-- Of several values that are inserted under different keys, each takes the place of one in the map
before them, if that had its key. -/
theorem weight_insertAll (m : OrderedMap κ α) {es : List (κ × α)} (h : (es.map Prod.fst).Nodup) :
    weight f (m.insertAll es).entries + (es.map fun e => (m.get? e.1).elim 0 f).sum =
      weight f m.entries + weight f es := by
  induction es generalizing m with
  | nil => simp [insertAll]
  | cons e es ih =>
    obtain ⟨hfresh, hrest⟩ := List.nodup_cons.mp h
    have hold : es.map (fun e' => ((m.insert e.1 e.2).get? e'.1).elim 0 f) =
        es.map fun e' => (m.get? e'.1).elim 0 f := by
      refine List.map_congr_left fun e' he' => ?_
      rw [get?_insert, if_neg]
      exact fun hkey => hfresh (hkey ▸ List.mem_map_of_mem he')
    have hothers := ih (m.insert e.1 e.2) hrest
    rw [hold] at hothers
    calc weight f (m.insertAll (e :: es)).entries +
          ((e :: es).map fun e => (m.get? e.1).elim 0 f).sum
        = weight f ((m.insert e.1 e.2).insertAll es).entries +
            (es.map fun e => (m.get? e.1).elim 0 f).sum + (m.get? e.1).elim 0 f := by
          rw [List.map_cons, List.sum_cons, insertAll, List.foldl_cons, insertAll]
          abel
      _ = weight f (m.insert e.1 e.2).entries + (m.get? e.1).elim 0 f + weight f es := by
          rw [hothers]
          abel
      _ = weight f m.entries + weight f (e :: es) := by
          rw [weight_insert, weight_cons]
          abel

/-- If a map is made from entries whose keys differ behind a first one, then the first value is lost
just if its key comes again. -/
theorem weight_ofList_cons (k : κ) (v : α) {es : List (κ × α)} (h : (es.map Prod.fst).Nodup) :
    weight f (ofList ((k, v) :: es)).entries + (if k ∈ es.map Prod.fst then f v else 0) =
      f v + weight f es := by
  have hlost : (es.map fun e => ((empty.insert k v).get? e.1).elim 0 f).sum =
      if k ∈ es.map Prod.fst then f v else 0 := by
    induction es with
    | nil => rfl
    | cons e es ih =>
      obtain ⟨hfresh, hrest⟩ := List.nodup_cons.mp h
      rw [List.map_cons, List.sum_cons, ih hrest, get?_insert, List.map_cons]
      by_cases hk : k = e.1
      · subst hk
        simp [hfresh]
      · rw [if_neg hk, if_congr (List.mem_cons.trans (or_iff_right hk)) rfl rfl]
        exact zero_add _
  have hall := weight_insertAll f (empty.insert k v) h
  rw [hlost] at hall
  exact hall.trans (by simp [insert, insertEntry, empty])

/-- A key's value is the weight of the entries under this key. -/
theorem elim_get?_eq_weight (m : OrderedMap κ α) (k : κ) :
    (m.get? k).elim 0 f = weight f (m.entries.filter fun e => e.1 = k) := by
  obtain ⟨es, hes⟩ := m
  induction es with
  | nil => rfl
  | cons e es ih =>
    obtain ⟨hfresh, hrest⟩ := List.nodup_cons.mp hes
    by_cases hk : e.1 = k
    · have hnone : es.filter (fun e => e.1 = k) = [] := by
        refine List.filter_eq_nil_iff.mpr fun e' he' hkey => hfresh ?_
        rw [hk, ← of_decide_eq_true hkey]
        exact List.mem_map_of_mem he'
      simp [get?, hk, hnone]
    · have hothers := ih hrest
      simp only [get?] at hothers
      simp [get?, hk, hothers]

end Weights

end Drydock.OrderedMap
