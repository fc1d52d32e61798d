/-
  Steps with bodies of lines. The markers of a step are those at the beginnings of words outside
  quotes (`find_eq_filterMap`). Their bodies are taken as they are written, and nothing in them is
  read: what stands below comes to the same with all bodies, only further down, and a body without
  an end is a fault of the step (`parse_written_bodies`). But no body is looked for if the arguments
  hold a number that is too long (`written_body_not_reached`).
-/
import Drydock.Proofs.Dockerfile.Keyword
import Drydock.Proofs.Dockerfile.LongNumber
import Drydock.Proofs.Dockerfile.Origin

namespace Drydock

theorem Quoting.after_concat (t : Text) (c : Char) :
    Quoting.after (t ++ [c]) = (Quoting.after t).next c := by
  rw [Quoting.after, List.foldl_append]
  rfl

namespace HeredocMarker

/-! ## Where markers stand -/

/-- The marker at a place of a text: it begins a word there, and no quote is open. -/
def at? (t : Text) (n : Nat) : Option HeredocMarker :=
  if (t.take n).getLast?.all Text.isBlank && !(Quoting.after (t.take n)).isOpen then
    read? (t.drop n)
  else none

theorem findFrom_eq_filterMap (front t : Text) :
    findFrom (Quoting.after front) front.getLast? t =
      (List.range t.length).filterMap fun n => at? (front ++ t) (front.length + n) := by
  induction t generalizing front with
  | nil => rfl
  | cons c t ih =>
    have hhere : at? (front ++ c :: t) front.length =
        if front.getLast?.all Text.isBlank && !(Quoting.after front).isOpen then read? (c :: t)
        else none := by
      unfold at?
      rw [List.take_left, List.drop_left]
    have hrest : (fun n => at? (front ++ [c] ++ t) ((front ++ [c]).length + n)) =
        (fun n => at? (front ++ c :: t) (front.length + n)) ∘ Nat.succ := by
      funext n
      rw [Function.comp_apply, List.append_assoc, List.singleton_append, List.length_append,
        List.length_singleton, Nat.add_assoc, Nat.add_comm 1 n]
    have hnext := ih (front ++ [c])
    rw [List.getLast?_concat, Quoting.after_concat, hrest] at hnext
    rw [findFrom, hnext, List.length_cons, List.range_succ_eq_map, List.filterMap_cons,
      List.filterMap_map, Nat.add_zero, ← hhere]
    cases at? (front ++ c :: t) front.length <;> rfl

/-- The markers of a text are those at its places, in order. -/
theorem find_eq_filterMap (t : Text) : find t = (List.range t.length).filterMap (at? t) := by
  have h := findFrom_eq_filterMap [] t
  simp only [List.nil_append, List.length_nil, Nat.zero_add] at h
  exact h

end HeredocMarker

/-! ## Bodies as they are written -/

theorem Text.joinWith_cons (separator t : Text) (ts : List Text) :
    joinWith separator (t :: ts) = t ++ ts.flatMap (separator ++ ·) := by
  induction ts generalizing t with
  | nil => exact (List.append_nil t).symm
  | cons u ts ih => rw [joinWith_cons_cons, ih u, List.flatMap_cons, List.append_assoc,
      List.append_assoc]

theorem HeredocMarker.attach_eq (arguments : Text) (bodies : List (List Text)) :
    attach arguments bodies =
      arguments ++ bodies.flatMap fun body => '\n' :: Text.joinWith ['\n'] body := by
  rw [attach, Text.joinWith_cons, List.flatMap_map]
  rfl

/-- A body of a marker: lines that do not end it, and the line that does. -/
structure HeredocBody where
  marker : HeredocMarker
  lines : List Text
  last : Text
  goesOn : ∀ line ∈ lines, marker.endsAt line = false
  ends : marker.endsAt last = true

namespace HeredocBody

/-- The lines of several bodies, each with the line that ends it. -/
def written (bodies : List HeredocBody) : List Text := bodies.flatMap fun b => b.lines ++ [b.last]

theorem written_cons (b : HeredocBody) (bodies : List HeredocBody) :
    written (b :: bodies) = b.lines ++ b.last :: written bodies := by
  rw [written, List.flatMap_cons, List.append_assoc, List.singleton_append]
  rfl

/-- Bodies are found as they are written, whatever stands below them. -/
theorem bodies_written_append (bodies : List HeredocBody) (markers : List HeredocMarker)
    (below : List Text) :
    HeredocMarker.bodies (bodies.map marker ++ markers) (written bodies ++ below) =
      (HeredocMarker.bodies markers below).map (bodies.map lines ++ ·) := by
  induction bodies with
  | nil => exact (congrFun Except.map_id _).symm
  | cons b bodies ih =>
    have hbody : b.marker.body? (b.lines ++ b.last :: (written bodies ++ below)) = some b.lines :=
      HeredocMarker.body?_eq_some_iff.mpr ⟨b.last, _, rfl, b.ends, b.goesOn⟩
    have hdrop : (b.lines ++ b.last :: (written bodies ++ below)).drop (b.lines.length + 1) =
        written bodies ++ below := by
      rw [List.drop_length_add_append, List.drop_succ_cons, List.drop_zero]
    rw [List.map_cons, List.cons_append, HeredocMarker.bodies, written_cons, List.append_assoc,
      List.cons_append, hbody]
    dsimp only
    rw [hdrop, ih]
    cases HeredocMarker.bodies markers below <;> rfl

theorem size_map_lines (bodies : List HeredocBody) :
    HeredocMarker.size (bodies.map lines) = (written bodies).length := by
  induction bodies with
  | nil => rfl
  | cons b bodies ih =>
    rw [List.map_cons, HeredocMarker.size_cons, ih, written_cons, List.length_append,
      List.length_cons]
    omega

end HeredocBody

/-- A marker whose body does not end is found with what the markers before it have left. -/
theorem HeredocMarker.body?_eq_none {m : HeredocMarker} {lines : List Text}
    (h : ∀ line ∈ lines, m.endsAt line = false) : m.body? lines = none := by
  induction lines with
  | nil => rfl
  | cons line lines ih =>
    rw [body?, h line List.mem_cons_self, if_neg (by simp),
      ih fun other ho => h other (List.mem_cons_of_mem _ ho), Option.map_none]

namespace Dockerfile

/-! ## Steps that announce bodies -/

/-- The lines of a step with markers, and what they say: arguments that are no array of strings, of
an instruction that takes bodies. -/
structure Announcement (escape : Char) where
  first : Text
  more : List Text
  line : LogicalLine
  solid : isSkippedLine first = false
  gathered : LogicalLine.gather escape (Text.strip first) more = some line
  complete : line.extra = more.length
  takesHeredoc : (opcodeOf (keywordOf line)).takesHeredoc = true
  notArray : ¬ Json.IsTextArray (argumentsOf line)

namespace Announcement

variable {escape : Char} (a : Announcement escape)

/-- The lines of the step, but for its bodies. -/
def lines : List Text := a.first :: a.more

/-- The lines of the step with its bodies. -/
def block (bodies : List HeredocBody) : List Text := a.lines ++ HeredocBody.written bodies

/-- The opcode of the keyword. -/
def opcode : Opcode := opcodeOf (keywordOf a.line)

/-- The argument text. -/
def arguments : Text := argumentsOf a.line

/-- The markers at the places of the argument text. -/
def markers : List HeredocMarker :=
  (List.range a.arguments.length).filterMap (HeredocMarker.at? a.arguments)

theorem length_block (bodies : List HeredocBody) :
    (a.block bodies).length = 1 + (a.more.length + (HeredocBody.written bodies).length) := by
  rw [block, List.length_append, lines, List.length_cons]
  omega

theorem block_append (bodies : List HeredocBody) (below : List Text) :
    a.block bodies ++ below = a.first :: (a.more ++ (HeredocBody.written bodies ++ below)) := by
  rw [block, lines, List.append_assoc, List.cons_append]

theorem markersOf_eq : markersOf (keywordOf a.line) (argumentsOf a.line) false = a.markers := by
  rw [markersOf, a.takesHeredoc, markers, ← HeredocMarker.find_eq_filterMap]
  rfl

/-- The arguments are words, unless a number among them is too long. -/
theorem splitArguments_eq (h : ∀ count, ¬ ComesToLongNumber a.arguments count) :
    splitArguments (argumentsOf a.line) = .ok (Text.fields a.arguments, false) := by
  cases hsplit : splitArguments (argumentsOf a.line) with
  | error cause =>
    obtain ⟨count, -, hnumber⟩ := splitArguments_eq_error_iff.mp hsplit
    exact absurd hnumber (h count)
  | ok split =>
    have hshell : split.2 = false :=
      Bool.eq_false_iff.mpr fun harray => a.notArray ((snd_of_splitArguments hsplit).mp harray)
    exact congrArg Except.ok (splitArguments_of_shell hsplit hshell)

theorem gather_append (below : List Text) :
    LogicalLine.gather escape (Text.strip a.first) (a.more ++ below) = some a.line :=
  LogicalLine.gather_congr a.gathered (List.take_append_of_le_length (Nat.le_of_eq a.complete))

/-- A number that is too long keeps the step from being read, whatever stands below its lines. -/
theorem stopsAtNumber {count : Nat} (h : ComesToLongNumber a.arguments count) (below : List Text) :
    StopsAtNumber escape a.first (a.more ++ below) count :=
  ⟨a.line, a.gather_append below, refusal?_of_takesHeredoc a.takesHeredoc _, h⟩

/-- What the step is read as with its bodies. -/
def reading (bodies : List HeredocBody) : Reading :=
  ⟨keywordOf a.line, a.arguments, (Text.fields a.arguments, false), bodies.map HeredocBody.lines,
    a.more.length + (HeredocBody.written bodies).length⟩

/-- The step is read with its bodies, whatever stands below them. -/
theorem read_written (hshort : ∀ count, ¬ ComesToLongNumber a.arguments count)
    {bodies : List HeredocBody} (h : bodies.map HeredocBody.marker = a.markers)
    (below : List Text) :
    Reading.read escape (Text.strip a.first)
        (a.more ++ (HeredocBody.written bodies ++ below)) = .ok (a.reading bodies) := by
  have hbodies := HeredocBody.bodies_written_append bodies [] below
  rw [List.append_nil, h, HeredocMarker.bodies, Except.map, List.append_nil] at hbodies
  refine Reading.read_eq_ok_iff.mpr
    ⟨a.line, _, bodies.map HeredocBody.lines, a.gather_append _,
      refusal?_of_takesHeredoc a.takesHeredoc _, a.splitArguments_eq hshort, ?_, ?_⟩
  · rw [a.markersOf_eq, a.complete, List.drop_left, hbodies]
  · rw [a.complete, HeredocBody.size_map_lines]
    rfl

/-- If no line ends a body, the step is refused for the first marker that is left open. -/
theorem read_unterminated (hshort : ∀ count, ¬ ComesToLongNumber a.arguments count)
    {bodies : List HeredocBody} {m : HeredocMarker} {markers : List HeredocMarker}
    (h : bodies.map HeredocBody.marker ++ m :: markers = a.markers) {below : List Text}
    (hbelow : ∀ line ∈ below, m.endsAt line = false) :
    Reading.read escape (Text.strip a.first)
        (a.more ++ (HeredocBody.written bodies ++ below)) =
      .error (.unterminatedHeredoc m.name) := by
  have hbodies := HeredocBody.bodies_written_append bodies (m :: markers) below
  rw [h, HeredocMarker.bodies, HeredocMarker.body?_eq_none hbelow] at hbodies
  unfold Reading.read
  rw [a.gather_append]
  dsimp only
  rw [refusal?_of_takesHeredoc a.takesHeredoc, a.splitArguments_eq hshort]
  dsimp only
  rw [a.markersOf_eq, a.complete, List.drop_left, hbodies]
  rfl

/-- The step itself, behind `n` lines. -/
def step (n : Nat) (commented : Bool) (bodies : List HeredocBody) : Instruction where
  opcode := a.opcode
  arguments := Text.fields a.arguments
  line := n + 1
  endLine := n + (a.block bodies).length
  raw := a.arguments ++ bodies.flatMap fun b => '\n' :: Text.joinWith ['\n'] b.lines
  execForm := false
  commented := commented

theorem place_written (n : Nat) (commented : Bool) (bodies : List HeredocBody) :
    (a.reading bodies).place n commented =
      ⟨a.step n commented bodies, none, a.more.length + (HeredocBody.written bodies).length⟩ := by
  have hknown : (opcodeOf (keywordOf a.line)).isKnown = true :=
    Opcode.isKnown_of_takesHeredoc a.takesHeredoc
  unfold Reading.place step reading
  dsimp only
  rw [hknown, if_pos rfl, a.length_block, Nat.add_assoc, HeredocMarker.attach_eq,
    List.flatMap_map]
  rfl

/-- The run goes on below the bodies as a run of its own, but further down. -/
theorem readStatements_written (hshort : ∀ count, ¬ ComesToLongNumber a.arguments count) (n : Nat)
    (flag : Bool) {bodies : List HeredocBody} (h : bodies.map HeredocBody.marker = a.markers)
    (below : List Text) :
    ∃ extra, readStatements escape n flag (a.block bodies ++ below) =
      (((readStatements escape 0 false below).map
        (List.map (Statement.shift (n + (a.block bodies).length)))).mapError
        (ParseError.shift (n + (a.block bodies).length))).map
        (⟨a.step n flag bodies, none, extra⟩ :: ·) := by
  have hplace : 0 + (n + (a.block bodies).length) =
      n + 1 + (a.more.length + (HeredocBody.written bodies).length) := by
    rw [a.length_block, Nat.zero_add, Nat.add_assoc]
  have hdrop : (a.more ++ (HeredocBody.written bodies ++ below)).drop
      (a.more.length + (HeredocBody.written bodies).length) = below := by
    rw [← List.append_assoc, ← List.length_append, List.drop_left]
  refine ⟨a.more.length + (HeredocBody.written bodies).length, ?_⟩
  rw [← readStatements_shift, hplace, a.block_append,
    readStatements_step a.solid (a.read_written hshort h below), place_written]
  show (readStatements escape _ false ((a.more ++ (HeredocBody.written bodies ++ below)).drop
    (a.more.length + (HeredocBody.written bodies).length))).map _ = _
  rw [hdrop]
  rfl

end Announcement

/-! ## Whole texts -/

/-- The same Dockerfile `n` lines further down. -/
def shift (n : Nat) (d : Dockerfile) : Dockerfile :=
  { d with
    instructions := d.instructions.map (Instruction.shift n)
    warnings := d.warnings.map (UnknownKeyword.shift n) }

/-- Reads lines that stand below others and hold no directives. -/
def ofLinesBelow (escape : Escape) (lines : List Text) : Except ParseError Dockerfile :=
  (readStatements escape.char 0 false lines).map (ofStatements escape)

/-- Nothing that a text comes to is on the lines behind `low` up to `high`. -/
def IsSilent (low high : Nat) : Except ParseError Dockerfile → Prop
  | .error e => e.line ≤ low ∨ high < e.line
  | .ok d => (∀ i ∈ d.instructions, i.line ≤ low ∨ high < i.line) ∧
    ∀ w ∈ d.warnings, w.line ≤ low ∨ high < w.line

theorem exists_line_of_warning {d : Dockerfile}
    (h : d.warnings.map UnknownKeyword.subject =
      (d.instructions.filter fun i => !i.opcode.isKnown).map fun i => (i.line, i.opcode))
    {w : UnknownKeyword} (hw : w ∈ d.warnings) : ∃ i ∈ d.instructions, i.line = w.line := by
  have hmem : w.subject ∈ (d.instructions.filter fun i => !i.opcode.isKnown).map
      fun i => (i.line, i.opcode) := h ▸ List.mem_map_of_mem hw
  obtain ⟨i, hi, heq⟩ := List.mem_map.mp hmem
  exact ⟨i, (List.mem_filter.mp hi).1, congrArg Prod.fst heq⟩

/-- What is read below other lines is on none of them. -/
theorem one_le_of_ofLinesBelow (escape : Escape) (lines : List Text) :
    match ofLinesBelow escape lines with
    | .error e => 1 ≤ e.line
    | .ok d => (∀ i ∈ d.instructions, 1 ≤ i.line) ∧ ∀ w ∈ d.warnings, 1 ≤ w.line := by
  unfold ofLinesBelow
  cases h : readStatements escape.char 0 false lines with
  | error e =>
    obtain ⟨k, -, -, hplace, -⟩ := readStatements_error h
    show 1 ≤ e.line
    omega
  | ok statements =>
    have hlines : ∀ i ∈ (ofStatements escape statements).instructions, 1 ≤ i.line :=
      fun i hi => ((layout_readStatements h).inside i hi).1
    refine ⟨hlines, fun w hw => ?_⟩
    obtain ⟨i, hi, heq⟩ := exists_line_of_warning (subject_warnings_readStatements h) hw
    exact heq ▸ hlines i hi

/-- A step between Dockerfiles leaves the lines between its own first ones and the later one to
nothing else. -/
theorem isSilent_behind {front : List Text} {before later : Dockerfile} {i : Instruction}
    {low high : Nat} (hfront : ofLines front = .ok before) (hlow : front.length ≤ low)
    (hi : i.line ≤ low) (hlater : (∀ j ∈ later.instructions, 1 ≤ j.line) ∧
      ∀ w ∈ later.warnings, 1 ≤ w.line) :
    IsSilent low high (.ok
      { instructions := before.instructions ++ i :: (later.shift high).instructions
        warnings := before.warnings ++ (later.shift high).warnings
        escape := before.escape }) := by
  have hbefore : ∀ j ∈ before.instructions, j.line ≤ low := by
    intro j hj
    have := (layout_ofLines hfront).inside j hj
    omega
  refine ⟨fun j hj => ?_, fun w hw => ?_⟩
  · rcases List.mem_append.mp hj with hj | hj
    · exact Or.inl (hbefore j hj)
    · rcases List.mem_cons.mp hj with rfl | hj
      · exact Or.inl hi
      · obtain ⟨k, hk, rfl⟩ := List.mem_map.mp hj
        exact Or.inr (Nat.lt_add_of_pos_left (hlater.1 k hk))
  · rcases List.mem_append.mp hw with hw | hw
    · obtain ⟨j, hj, heq⟩ := exists_line_of_warning (subject_warnings_ofLines hfront) hw
      exact Or.inl (heq ▸ hbefore j hj)
    · obtain ⟨v, hv, rfl⟩ := List.mem_map.mp hw
      exact Or.inr (Nat.lt_add_of_pos_left (hlater.2 v hv))

section Written

variable {front : List Text} {before : Dockerfile} (hfront : ofLines front = .ok before)
  (a : Announcement before.escape.char)

include hfront

/-- A step with a number that is too long stops there, whatever stands below its lines. -/
theorem parse_announcement_of_number {count : Nat} (h : ComesToLongNumber a.arguments count)
    {below : List Text} {t : Text} (ht : physicalLines t = front ++ a.lines ++ below) :
    parse t = .error ⟨front.length + 1, .tooManyDigits count⟩ := by
  rw [parse, ht, List.append_assoc]
  exact ofLines_fault hfront a.solid (a.stopsAtNumber h below).read_eq

variable (hshort : ∀ count, ¬ ComesToLongNumber a.arguments count)

include hshort

/-- What the lines below the bodies come to alone, they come to further down. -/
theorem exists_parse_block : ∃ commented : Bool, ∀ (bodies : List HeredocBody)
    (below : List Text) (t : Text), bodies.map HeredocBody.marker = a.markers →
    physicalLines t = front ++ a.block bodies ++ below →
    (parse t = match ofLinesBelow before.escape below with
      | .error e => .error (e.shift (front ++ a.block bodies).length)
      | .ok later => .ok
          { instructions := before.instructions ++ a.step front.length commented bodies ::
              (later.shift (front ++ a.block bodies).length).instructions
            warnings := before.warnings ++
              (later.shift (front ++ a.block bodies).length).warnings
            escape := before.escape }) ∧
    IsSilent (front ++ a.lines).length (front ++ a.block bodies).length (parse t) := by
  obtain ⟨flag, -, hmore⟩ := exists_ofLines_append hfront
  refine ⟨flag, fun bodies below t hbodies ht => ?_⟩
  have hcomment : ∀ line ∈ (a.block bodies ++ below).head?, isCommentLine line = false := by
    intro line hline
    rw [a.block_append] at hline
    obtain rfl := Option.some.inj hline
    exact not_isCommentLine_of_solid a.solid
  obtain ⟨extra, hrun⟩ := a.readStatements_written hshort front.length flag hbodies below
  have hresult := hmore _ hcomment
  rw [← List.append_assoc, ← ht, hrun, ← List.length_append] at hresult
  change parse t = _ at hresult
  have hbelow := one_le_of_ofLinesBelow before.escape below
  unfold ofLinesBelow at hbelow ⊢
  cases hlater : readStatements before.escape.char 0 false below with
  | error e =>
    rw [hlater] at hresult hbelow
    rw [hresult]
    exact ⟨rfl, Or.inr (Nat.lt_add_of_pos_left hbelow)⟩
  | ok later =>
    rw [hlater] at hresult hbelow
    simp only [Except.map, Except.mapError, List.map_cons, List.filterMap_cons,
      instructions_map_shift, warnings_map_shift] at hresult
    rw [hresult]
    have hlow : front.length + 1 ≤ (front ++ a.lines).length := by
      rw [List.length_append, Announcement.lines, List.length_cons]
      omega
    exact ⟨rfl, isSilent_behind hfront (Nat.le_of_succ_le hlow) hlow hbelow⟩

/-- A body without an end is a fault of the step. -/
theorem parse_open_block {bodies : List HeredocBody} {m : HeredocMarker}
    {markers : List HeredocMarker} (hbodies : bodies.map HeredocBody.marker ++ m :: markers = a.markers)
    {below : List Text} (hopen : ∀ line ∈ below, m.endsAt line = false) {t : Text}
    (ht : physicalLines t = front ++ a.block bodies ++ below) :
    parse t = .error ⟨front.length + 1, .unterminatedHeredoc m.name⟩ := by
  rw [parse, ht, List.append_assoc, a.block_append]
  exact ofLines_fault hfront a.solid (a.read_unterminated hshort hbodies hopen)

end Written

/-- Bodies are taken as they are written and nothing in them is read. A step with bodies for all its
markers captures them line by line and ends where the last one does; the lines below come to the
same for all such bodies, only further down. If no line ends a body, the step is refused for the
first marker that is left open. All this is so unless the arguments, which are no array of strings,
hold a number that is too long where an array is looked for: then nothing is read, whatever stands
below, and what has happened is not reported. -/
theorem parse_written_bodies (front : List Text) (before : Dockerfile)
    (hfront : ofLines front = .ok before) (a : Announcement before.escape.char) :
    (∀ (count : Nat) (below : List Text) (t : Text), ComesToLongNumber a.arguments count →
      physicalLines t = front ++ a.lines ++ below →
      parse t = .error ⟨front.length + 1, .tooManyDigits count⟩ ∧
      (ParseCause.tooManyDigits count).isReported = false) ∧
    ((∀ count, ¬ ComesToLongNumber a.arguments count) →
    (∃ commented : Bool, ∀ (bodies : List HeredocBody) (below : List Text) (t : Text),
      bodies.map HeredocBody.marker = a.markers →
      physicalLines t = front ++ a.block bodies ++ below →
      (parse t = match ofLinesBelow before.escape below with
        | .error e => .error (e.shift (front ++ a.block bodies).length)
        | .ok later => .ok
            { instructions := before.instructions ++ a.step front.length commented bodies ::
                (later.shift (front ++ a.block bodies).length).instructions
              warnings := before.warnings ++
                (later.shift (front ++ a.block bodies).length).warnings
              escape := before.escape }) ∧
      IsSilent (front ++ a.lines).length
        (front ++ a.block bodies).length (parse t)) ∧
    ∀ (bodies : List HeredocBody) (m : HeredocMarker) (markers : List HeredocMarker)
      (below : List Text) (t : Text),
      bodies.map HeredocBody.marker ++ m :: markers = a.markers →
      (∀ line ∈ below, m.endsAt line = false) →
      physicalLines t = front ++ a.block bodies ++ below →
      parse t = .error ⟨front.length + 1, .unterminatedHeredoc m.name⟩) :=
  ⟨fun _ _ _ hnumber ht => ⟨parse_announcement_of_number hfront a hnumber ht, rfl⟩,
    fun hshort => ⟨exists_parse_block hfront a hshort,
      fun _ _ _ _ _ hbodies hopen ht => parse_open_block hfront a hshort hbodies hopen ht⟩⟩

/-- A step with two markers; the one inside quotes counts for nothing. -/
def Announcement.ofTwoMarkers : Announcement '\\' where
  first := "RUN cat <<A <<-'B' \\"
  more := ["# c", "  \" <<C\""]
  line := ⟨["RUN cat <<A <<-'B'", "\" <<C\""], 2⟩
  solid := by decide +kernel
  gathered := by decide +kernel
  complete := rfl
  takesHeredoc := by decide +kernel
  notArray harray := by
    obtain ⟨u, hu⟩ := harray.exists_eq
    have hhead : (argumentsOf ⟨["RUN cat <<A <<-'B'", "\" <<C\""], 2⟩).head? = some 'c' := by
      decide +kernel
    rw [hu] at hhead
    exact absurd hhead (by simp)

end Dockerfile

/-- A body that holds a step, a comment, the name of another marker and its own behind a tab. -/
def HeredocBody.ofPlainMarker : HeredocBody where
  marker := ⟨"A", false⟩
  lines := ["FROM x\\", "# d", "B", "\tA"]
  last := "A "
  goesOn := by decide +kernel
  ends := by decide +kernel

/-- A body whose end stands behind tabs. -/
def HeredocBody.ofTabMarker : HeredocBody where
  marker := ⟨"B", true⟩
  lines := ["A"]
  last := "\t\tB"
  goesOn := by decide +kernel
  ends := by decide +kernel

namespace Dockerfile

/-- Two bodies below a step on three lines; without the end of the second the step is refused. -/
theorem parse_written_bodies_of_two_markers :
    (∃ commented, parse ("FROM a\nRUN cat <<A <<-'B' \\\n# c\n  \" <<C\"\n" ++
        "FROM x\\\n# d\nB\n\tA\nA \n" ++ "A\n\t\tB\nUSER u\n") = .ok
      { instructions :=
          [{ opcode := .base, arguments := ["a"], line := 1, endLine := 1, raw := "a" },
           { opcode := .run, arguments := ["cat", "<<A", "<<-'B'", "\"", "<<C\""], line := 2,
             endLine := 11, raw := "cat <<A <<-'B' \" <<C\"\nFROM x\\\n# d\nB\n\tA\nA",
             commented },
           { opcode := .user, arguments := ["u"], line := 12, endLine := 12, raw := "u" }]
        warnings := []
        escape := .backslash }) ∧
    parse ("FROM a\nRUN cat <<A <<-'B' \\\n# c\n  \" <<C\"\n" ++
        "FROM x\\\n# d\nB\n\tA\nA \n" ++ "USER u\n") =
      .error ⟨2, .unterminatedHeredoc "B"⟩ := by
  have hfront : ofLines ["FROM a"] = .ok
      { instructions :=
          [{ opcode := .base, arguments := ["a"], line := 1, endLine := 1, raw := "a" }]
        warnings := []
        escape := .backslash } := by decide +kernel
  have hbelow : ofLinesBelow .backslash ["USER u"] = .ok
      { instructions :=
          [{ opcode := .user, arguments := ["u"], line := 1, endLine := 1, raw := "u" }]
        warnings := []
        escape := .backslash } := by decide +kernel
  have hshort : ∀ count, ¬ ComesToLongNumber Announcement.ofTwoMarkers.arguments count :=
    not_comesToLongNumber_of_length_le (by decide +kernel)
  obtain ⟨⟨commented, hwritten⟩, hopen⟩ :=
    (parse_written_bodies ["FROM a"] _ hfront Announcement.ofTwoMarkers).2 hshort
  refine ⟨⟨commented, ?_⟩, hopen [.ofPlainMarker] ⟨"B", true⟩ [] ["USER u"] _ (by decide +kernel)
    (by decide +kernel) (by decide +kernel)⟩
  refine (hwritten [.ofPlainMarker, .ofTabMarker] ["USER u"] _ (by decide +kernel)
    (by decide +kernel)).1.trans ?_
  rw [hbelow]
  cases commented <;> decide +kernel

end Dockerfile

namespace HeredocMarker

/-- Digits behind a character that is no blank neither begin a marker nor open a quote. -/
theorem exists_findFrom_digits {row : Text} (hrow : ∀ c ∈ row, Text.isAsciiDigit c = true)
    {before : Char} (hbefore : Text.isBlank before = false) (t : Text) :
    ∃ last, Text.isBlank last = false ∧
      findFrom .plain (some before) (row ++ t) = findFrom .plain (some last) t := by
  induction row generalizing before with
  | nil => exact ⟨before, hbefore, rfl⟩
  | cons c row ih =>
    obtain ⟨hc, hrow⟩ := List.forall_mem_cons.mp hrow
    have hother {d : Char} (hd : Text.isAsciiDigit d = false) : c ≠ d := by
      rintro rfl
      exact absurd hc (by simp [hd])
    have hnext : Quoting.next .plain c = .plain := by
      simp [Quoting.next, hother (d := '\\') (by decide), hother (d := '"') (by decide),
        hother (d := '\'') (by decide)]
    obtain ⟨last, hlast, hfind⟩ := ih hrow (Text.isBlank_of_isAsciiDigit hc)
    refine ⟨last, hlast, ?_⟩
    rw [← hfind, List.cons_append, findFrom, hnext]
    simp [hbefore]

/-- The markers of an array that begins with digits stand behind them. -/
theorem find_rowArray {row : Text} (hrow : ∀ c ∈ row, Text.isAsciiDigit c = true) (rest : Text) :
    find (Dockerfile.rowArray row (' ' :: rest)) =
      findFrom .plain (some ' ') (rest ++ [']']) := by
  have hfirst : Text.isBlank '[' = false := by decide
  obtain ⟨last, hlast, hfind⟩ := exists_findFrom_digits hrow hfirst (' ' :: (rest ++ [']']))
  have hopen : find (Dockerfile.rowArray row (' ' :: rest)) =
      findFrom .plain (some '[') (row ++ ' ' :: (rest ++ [']'])) := rfl
  rw [hopen, hfind, findFrom, Option.all_some, hlast]
  rfl

end HeredocMarker

namespace Dockerfile

/-- A body is announced among the items of an array with a number that is too long: it is not looked
for, and the step is neither read nor reported. -/
theorem written_body_not_reached :
    ∃ a : Announcement '\\', a.lines = [longStep "<<EOF "] ∧ a.markers = [⟨"EOF", false⟩] ∧
      parse (("FROM a\n" : Text) ++ (longStep "<<EOF " ++ '\n' :: "x\nEOF\n")) =
        .error ⟨2, .tooManyDigits 4301⟩ ∧
      (ParseCause.tooManyDigits 4301).isReported = false := by
  have hrest : Text.IsLine "<<EOF " := by decide
  have hline := isOneLine_longStep hrest .backslash
  obtain ⟨l, hl, hextra, hkeyword, harguments⟩ := hline.gather_line []
  have hnumber : ComesToLongNumber (argumentsOf l) longRow.length := by
    rw [harguments]
    exact comesToLongNumber_rowArray isLongRow_longRow (Json.endsInteger_space_cons _)
  have hnot : ¬ Json.IsTextArray (argumentsOf l) := by
    intro harray
    obtain ⟨texts, htexts⟩ := splitArguments_array_iff.mpr harray
    rw [splitArguments_eq_error_iff.mpr ⟨_, rfl, hnumber⟩] at htexts
    exact absurd htexts (by simp)
  let a : Announcement '\\' :=
    { first := longStep "<<EOF "
      more := []
      line := l
      solid := hline.solid_line
      gathered := hl
      complete := hextra
      takesHeredoc := by rw [hkeyword]; rfl
      notArray := hnot }
  refine ⟨a, rfl, ?_, parse_longStep hrest _, rfl⟩
  rw [← a.markersOf_eq]
  show markersOf (keywordOf l) (argumentsOf l) false = _
  have hfind := HeredocMarker.find_rowArray isLongRow_longRow.digits "<<EOF "
  have hmarkers : HeredocMarker.findFrom .plain (some ' ') ("<<EOF " ++ [']']) =
      [⟨"EOF", false⟩] := by decide +kernel
  rw [hkeyword, harguments]
  exact hfind.trans hmarkers

end Dockerfile

end Drydock
