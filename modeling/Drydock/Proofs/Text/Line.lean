/-
  Laws of physical lines. A text that ends its last line can be read apart from what follows it;
  more text behind a line feed only adds lines; and joining lines by any of the eleven line ends
  gives text with these lines again, but for an empty line at the end (`lines_joinWith_lineEnd`).
-/
import Drydock.Text.Line

namespace Drydock.Text

/-- A text with no line end in it. -/
def IsLine (t : Text) : Prop := ∀ c ∈ t, isLineEnd c = false

instance (t : Text) : Decidable (IsLine t) := List.decidableBAll _ t

theorem isLine_cons {c : Char} {t : Text} : IsLine (c :: t) ↔ isLineEnd c = false ∧ IsLine t := by
  simp [IsLine]

theorem IsLine.append {t u : Text} (ht : IsLine t) (hu : IsLine u) : IsLine (t ++ u) := by
  intro c hc
  rcases List.mem_append.mp hc with hc | hc
  · exact ht c hc
  · exact hu c hc

/-! ## One character -/

theorem lines_cons_of_not_lineEnd {c : Char} (h : isLineEnd c = false) (t : Text) :
    lines (c :: t) = pushFront c (lines t) := by
  have hc : c ≠ '\r' := by
    rintro rfl
    exact absurd h (by decide)
  rw [lines]
  · simp [h]
  · intro u hr _
    exact hc hr

theorem lines_cons_of_lineEnd {c : Char} (h : isLineEnd c = true) {t : Text}
    (ht : c = '\r' → t.head? ≠ some '\n') : lines (c :: t) = [] :: lines t := by
  rw [lines]
  · simp [h]
  · rintro u rfl rfl
    exact ht rfl rfl

theorem lines_newline_cons (t : Text) : lines ('\n' :: t) = [] :: lines t :=
  lines_cons_of_lineEnd (by decide) fun h => absurd h (by decide)

theorem lines_ne_nil {t : Text} (h : t ≠ []) : lines t ≠ [] := by
  cases t with
  | nil => exact absurd rfl h
  | cons c t =>
    rw [lines.eq_def]
    split
    · contradiction
    · exact List.cons_ne_nil _ _
    · split
      · exact List.cons_ne_nil _ _
      · exact pushFront_ne_nil _ _

theorem pushFront_append (c : Char) {pieces : List Text} (h : pieces ≠ []) (more : List Text) :
    pushFront c (pieces ++ more) = pushFront c pieces ++ more := by
  obtain ⟨piece, rest, rfl⟩ := List.exists_cons_of_ne_nil h
  rfl

/-- The first line of a text begins as the text does. -/
theorem head_of_mem_head_lines {t u : Text} (h : u ∈ (lines t).head?) :
    u = [] ∨ u.head? = t.head? := by
  cases t with
  | nil => exact absurd h (by simp)
  | cons c t =>
    rw [lines.eq_def] at h
    split at h
    · contradiction
    · exact Or.inl (Option.some.inj h).symm
    · rename_i d rest _ hd
      obtain ⟨rfl, rfl⟩ := List.cons.inj hd
      split at h
      · exact Or.inl (Option.some.inj h).symm
      · cases hrest : lines t with
        | nil =>
          rw [hrest] at h
          exact Or.inr (by rw [← Option.some.inj h]; rfl)
        | cons piece pieces =>
          rw [hrest] at h
          exact Or.inr (by rw [← Option.some.inj h]; rfl)

/-! ## A line in front -/

/-- The eleven ends of a line. -/
def lineEnds : List Text :=
  ["\n", "\r", "\r\n", "\x0b", "\x0c", "\x1c", "\x1d", "\x1e", "\u0085", "\u2028", "\u2029"]

/-- An end of a line is one character, unless it is a carriage return with a line feed. -/
theorem lineEnd_cases {e : Text} (h : e ∈ lineEnds) :
    e = ['\r', '\n'] ∨ ∃ c, e = [c] ∧ isLineEnd c = true := by
  simp only [lineEnds, List.mem_cons, List.not_mem_nil, or_false] at h
  rcases h with rfl | rfl | rfl | rfl | rfl | rfl | rfl | rfl | rfl | rfl | rfl
  case inr.inr.inl => exact Or.inl rfl
  all_goals exact Or.inr ⟨_, rfl, by decide⟩

/-- An end in front of a text ends an empty line, unless it is half of a pair. -/
theorem lines_lineEnd_append {e : Text} (he : e ∈ lineEnds) {t : Text}
    (ht : e = ['\r'] → t.head? ≠ some '\n') : lines (e ++ t) = [] :: lines t := by
  rcases lineEnd_cases he with rfl | ⟨c, rfl, hc⟩
  · rw [List.cons_append, List.singleton_append, lines]
  · exact lines_cons_of_lineEnd hc fun hreturn => ht (by rw [hreturn])

/-- A line in front of a text lengthens the first line of the text. -/
theorem lines_append_of_cons {t front : Text} {below : List Text} (ht : lines t = front :: below)
    {u : Text} (hu : IsLine u) : lines (u ++ t) = (u ++ front) :: below := by
  induction u with
  | nil => exact ht
  | cons c u ih =>
    obtain ⟨hc, hu⟩ := isLine_cons.mp hu
    rw [List.cons_append, lines_cons_of_not_lineEnd hc, ih hu, pushFront, List.cons_append]

theorem lines_append_lineEnd {u : Text} (hu : IsLine u) {e : Text} (he : e ∈ lineEnds) {t : Text}
    (ht : e = ['\r'] → t.head? ≠ some '\n') : lines (u ++ (e ++ t)) = u :: lines t := by
  rw [lines_append_of_cons (lines_lineEnd_append he ht) hu, List.append_nil]

theorem lines_append_newline {u : Text} (hu : IsLine u) (t : Text) :
    lines (u ++ '\n' :: t) = u :: lines t :=
  lines_append_lineEnd hu (e := ['\n']) (by decide) fun h => absurd h (by decide)

/-- Lines with their line feeds in front of a text are lines of their own. -/
theorem lines_append_newlines {front : List Text} (h : ∀ u ∈ front, IsLine u) (t : Text) :
    lines ((front.flatMap fun u => u ++ ['\n']) ++ t) = front ++ lines t := by
  induction front with
  | nil => rfl
  | cons u front ih =>
    rw [List.flatMap_cons, List.append_assoc, List.append_assoc, List.singleton_append,
      lines_append_newline (h u List.mem_cons_self),
      ih fun v hv => h v (List.mem_cons_of_mem _ hv), List.cons_append]

theorem lines_of_isLine {u : Text} (hu : IsLine u) (hne : u ≠ []) : lines u = [u] := by
  induction u with
  | nil => exact absurd rfl hne
  | cons c u ih =>
    obtain ⟨hc, hu⟩ := isLine_cons.mp hu
    rw [lines_cons_of_not_lineEnd hc]
    by_cases hnil : u = []
    · rw [hnil, lines_nil, pushFront]
    · rw [ih hu hnil, pushFront]

/-- What a text adds to an open line in front of it is the same for all such lines. -/
theorem exists_lines_append (t : Text) : ∃ front below, ∀ u : Text, u ≠ [] → IsLine u →
    lines (u ++ t) = (u ++ front) :: below := by
  cases ht : lines t with
  | nil =>
    have hnil : t = [] := by
      by_cases hne : t = []
      · exact hne
      · exact absurd ht (lines_ne_nil hne)
    refine ⟨[], [], fun u hne hu => ?_⟩
    rw [hnil, List.append_nil, lines_of_isLine hu hne]
  | cons front below => exact ⟨front, below, fun u _ hu => lines_append_of_cons ht hu⟩

/-- An open line ends where a text goes on with the end of a line, or not at all. -/
theorem exists_lines_append_of_lineEnd {t : Text} (h : ∀ c ∈ t.head?, isLineEnd c = true) :
    ∃ below, ∀ u : Text, u ≠ [] → IsLine u → lines (u ++ t) = u :: below := by
  cases t with
  | nil =>
    refine ⟨[], fun u hne hu => ?_⟩
    rw [List.append_nil, lines_of_isLine hu hne]
  | cons c t =>
    obtain ⟨below, hlines⟩ : ∃ below, lines (c :: t) = [] :: below := by
      rw [lines.eq_def]
      split
      · contradiction
      · exact ⟨_, rfl⟩
      · rename_i d rest _ hd
        obtain ⟨rfl, rfl⟩ := List.cons.inj hd
        rw [if_pos (h c rfl)]
        exact ⟨_, rfl⟩
    refine ⟨below, fun u _ hu => ?_⟩
    rw [lines_append_of_cons hlines hu, List.append_nil]

/-! ## Text in front -/

/-- The last line of a text has its end, and a text behind it begins on another line. -/
def EndsLine (t u : Text) : Prop :=
  t = [] ∨ ∃ c, t.getLast? = some c ∧ isLineEnd c = true ∧ (c = '\r' → u.head? ≠ some '\n')

theorem endsLine_of_newline {t : Text} (h : t = [] ∨ t.getLast? = some '\n') (u : Text) :
    EndsLine t u := by
  rcases h with h | h
  · exact Or.inl h
  · exact Or.inr ⟨'\n', h, by decide, fun hc => absurd hc (by decide)⟩

theorem EndsLine.tail {c : Char} {t u : Text} (h : EndsLine (c :: t) u) : EndsLine t u := by
  rcases h with h | ⟨d, hd, hend, hr⟩
  · exact absurd h (List.cons_ne_nil _ _)
  · cases t with
    | nil => exact Or.inl rfl
    | cons e t => exact Or.inr ⟨d, by rwa [List.getLast?_cons_cons] at hd, hend, hr⟩

/-- A text that ends its last line is read apart from what follows it. -/
theorem lines_append {t u : Text} (h : EndsLine t u) : lines (t ++ u) = lines t ++ lines u := by
  fun_induction lines t with
  | case1 => rfl
  | case2 t ih => rw [List.cons_append, List.cons_append, lines, ih h.tail.tail, List.cons_append]
  | case3 c t hrn hc ih =>
    have ht : c = '\r' → (t ++ u).head? ≠ some '\n' := by
      rintro rfl
      cases t with
      | nil =>
        rcases h with h | ⟨d, hd, -, hr⟩
        · exact absurd h (List.cons_ne_nil _ _)
        · exact hr (Option.some.inj hd).symm
      | cons d t =>
        intro hd
        have hd : d = '\n' := Option.some.inj hd
        exact hrn t rfl (by rw [hd])
    rw [List.cons_append, lines_cons_of_lineEnd hc ht, ih h.tail, List.cons_append]
  | case4 c t hrn hc ih =>
    have hne : t ≠ [] := by
      rintro rfl
      rcases h with h | ⟨d, hd, hend, -⟩
      · exact absurd h (List.cons_ne_nil _ _)
      · have hd : c = d := Option.some.inj hd
        exact hc (hd ▸ hend)
    rw [List.cons_append, lines_cons_of_not_lineEnd (by simpa using hc), ih h.tail,
      pushFront_append c (lines_ne_nil hne)]

/-- Text behind a line feed adds lines and changes none. -/
theorem exists_lines_append_newline (t u : Text) :
    ∃ more, lines (t ++ '\n' :: u) = lines t ++ more := by
  fun_induction lines t with
  | case1 => exact ⟨_, rfl⟩
  | case2 t ih =>
    obtain ⟨more, hmore⟩ := ih
    refine ⟨more, ?_⟩
    rw [List.cons_append, List.cons_append, lines, hmore, List.cons_append]
  | case3 c t hrn hc ih =>
    obtain ⟨more, hmore⟩ := ih
    by_cases hr : c = '\r' ∧ t = []
    · -- The line feed belongs to the carriage return before it.
      obtain ⟨rfl, rfl⟩ := hr
      exact ⟨lines u, by rw [List.cons_append, List.nil_append, lines]; rfl⟩
    · refine ⟨more, ?_⟩
      rw [List.cons_append, lines_cons_of_lineEnd hc, hmore, List.cons_append]
      rintro rfl
      cases t with
      | nil => exact absurd ⟨rfl, rfl⟩ hr
      | cons d t =>
        intro hd
        have hd : d = '\n' := Option.some.inj hd
        exact hrn t rfl (by rw [hd])
  | case4 c t hrn hc ih =>
    obtain ⟨more, hmore⟩ := ih
    have hc : isLineEnd c = false := by simpa using hc
    rw [List.cons_append, lines_cons_of_not_lineEnd hc]
    cases t with
    | nil => exact ⟨lines u, by rw [List.nil_append, lines_newline_cons]; rfl⟩
    | cons d t => exact ⟨more, by rw [hmore, pushFront_append c (lines_ne_nil (by simp))]⟩

/-! ## Joining lines -/

theorem isLine_of_mem_lines {t : Text} {u : Text} (hu : u ∈ lines t) : IsLine u := by
  fun_induction lines t generalizing u with
  | case1 => exact absurd hu List.not_mem_nil
  | case2 t ih =>
    rcases List.mem_cons.mp hu with rfl | hu
    · exact fun c hc => absurd hc List.not_mem_nil
    · exact ih hu
  | case3 c t hrn hc ih =>
    rcases List.mem_cons.mp hu with rfl | hu
    · exact fun c hc => absurd hc List.not_mem_nil
    · exact ih hu
  | case4 c t hrn hc ih =>
    have hc : isLineEnd c = false := by simpa using hc
    cases ht : lines t with
    | nil =>
      rw [ht, pushFront, List.mem_singleton] at hu
      rw [hu]
      exact isLine_cons.mpr ⟨hc, fun d hd => absurd hd List.not_mem_nil⟩
    | cons piece rest =>
      rw [ht] at ih hu
      rcases List.mem_cons.mp hu with rfl | hu
      · exact isLine_cons.mpr ⟨hc, ih List.mem_cons_self⟩
      · exact ih (List.mem_cons_of_mem _ hu)

/-- Lines that are joined do not begin with a line feed, unless they are joined by one. -/
theorem head_joinWith_return {ls : List Text} (h : ∀ u ∈ ls, IsLine u) :
    (joinWith ['\r'] ls).head? ≠ some '\n' := by
  match ls with
  | [] => exact fun hn => absurd hn (by simp)
  | [] :: [] => exact fun hn => absurd hn (by simp)
  | [] :: _ :: _ => exact fun hn => absurd (Option.some.inj hn) (by decide)
  | (c :: u) :: rest =>
    have hc := (isLine_cons.mp (h _ List.mem_cons_self)).1
    have hhead : (joinWith ['\r'] ((c :: u) :: rest)).head? = some c := by
      cases rest <;> rfl
    rw [hhead]
    rintro ⟨rfl⟩
    exact absurd hc (by decide)

/-- Joined lines are read as these lines, except that an empty line at the end leaves no trace. -/
theorem lines_joinWith_lineEnd {e : Text} (he : e ∈ lineEnds) (ls : List Text)
    (h : ∀ u ∈ ls, IsLine u) :
    lines (joinWith e ls) = ls ∨ lines (joinWith e ls) ++ [[]] = ls := by
  induction ls with
  | nil => exact Or.inl rfl
  | cons u ls ih =>
    have hu := h u List.mem_cons_self
    cases ls with
    | nil =>
      rw [joinWith_singleton]
      by_cases hne : u = []
      · exact Or.inr (by rw [hne]; rfl)
      · exact Or.inl (lines_of_isLine hu hne)
    | cons v ls =>
      have hls : ∀ w ∈ v :: ls, IsLine w := fun w hw => h w (List.mem_cons_of_mem _ hw)
      have hreturn : e = ['\r'] → (joinWith e (v :: ls)).head? ≠ some '\n' := by
        rintro rfl
        exact head_joinWith_return hls
      rw [joinWith_cons_cons, List.append_assoc, lines_append_lineEnd hu he hreturn,
        List.cons_append, List.cons.injEq, List.cons.injEq]
      simpa using ih hls

/-! ## Unified line ends -/

/-- Every line end ends a line as well as a line feed does. -/
theorem lines_unifyLineEnds (t : Text) : lines (unifyLineEnds t) = lines t := by
  fun_induction unifyLineEnds t with
  | case1 => rfl
  | case2 t ih => rw [lines_newline_cons, ih, lines]
  | case3 t hfeed ih =>
    have hhead : t.head? ≠ some '\n' := by
      intro h
      obtain ⟨rest, rfl⟩ := List.head?_eq_some_iff.mp h
      exact hfeed rest rfl
    rw [lines_newline_cons, ih, lines_cons_of_lineEnd (by decide) fun _ => hhead]
  | case4 c t hpair hreturn ih =>
    have hc : c ≠ '\r' := fun h => hreturn h
    cases hend : isLineEnd c with
    | true =>
      rw [lines_cons_of_lineEnd hend fun h => absurd h hc, ih,
        lines_cons_of_lineEnd hend fun h => absurd h hc]
    | false => rw [lines_cons_of_not_lineEnd hend, ih, lines_cons_of_not_lineEnd hend]

end Drydock.Text
