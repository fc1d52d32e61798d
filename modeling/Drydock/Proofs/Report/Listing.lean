/-
  The text form of a report as a listing of its findings. A sort by line keeps the findings of each
  line in their order (`filter_mergeSort_key`), and every finding has one of three severities
  (`perm_of_severities`). So the lines hold each finding once, below a header with the number of
  its group, and the last line tells the same numbers (`text_lists_findings`).
-/
import Drydock.Proofs.Text.Plain
import Drydock.Report.Render
import Mathlib.Data.List.Forall2

namespace Drydock

/-! ## Sorting by a key -/

section Keys

variable {α : Type} (key : α → Int)

theorem le_trans_of_key (a b c : α) (hab : decide (key a ≤ key b) = true)
    (hbc : decide (key b ≤ key c) = true) : decide (key a ≤ key c) = true :=
  decide_eq_true (Int.le_trans (of_decide_eq_true hab) (of_decide_eq_true hbc))

theorem le_total_of_key (a b : α) : (decide (key a ≤ key b) || decide (key b ≤ key a)) = true := by
  simpa using Int.le_total (key a) (key b)

theorem pairwise_mergeSort_key (l : List α) :
    (l.mergeSort fun a b => key a ≤ key b).Pairwise fun a b => key a ≤ key b :=
  (List.pairwise_mergeSort (le_trans_of_key key) (le_total_of_key key) l).imp of_decide_eq_true

/-- Members with one key keep their order. -/
theorem filter_mergeSort_key (l : List α) (n : Int) :
    (l.mergeSort fun a b => key a ≤ key b).filter (fun a => key a = n) =
      l.filter fun a => key a = n := by
  have hpairwise : (l.filter fun a => key a = n).Pairwise
      fun a b => decide (key a ≤ key b) = true := by
    refine List.pairwise_of_forall_mem_list fun a ha b hb => decide_eq_true ?_
    have hsame : key a = key b :=
      (of_decide_eq_true (List.mem_filter.mp ha).2).trans
        (of_decide_eq_true (List.mem_filter.mp hb).2).symm
    exact Int.le_of_eq hsame
  have hsublist := (List.sublist_mergeSort (le_trans_of_key key) (le_total_of_key key) hpairwise
    List.filter_sublist).filter fun a => key a = n
  rw [List.filter_filter] at hsublist
  simp only [Bool.and_self] at hsublist
  exact (hsublist.eq_of_length ((List.mergeSort_perm l _).filter _).length_eq.symm).symm

end Keys

/-- Findings by severity are all findings. -/
theorem perm_of_severities (findings : List Finding) :
    ((findings.filter fun f => f.severity = .error) ++
      (findings.filter fun f => f.severity = .warning) ++
      findings.filter fun f => f.severity = .info).Perm findings := by
  refine List.perm_iff_count.mpr fun f => ?_
  have hcount (s : Severity) : (findings.filter fun g => g.severity = s).count f =
      if f.severity = s then findings.count f else 0 := by
    split
    · next h => exact List.count_filter (decide_eq_true h)
    · next h =>
      exact List.count_eq_zero.mpr fun hf => h (of_decide_eq_true (List.mem_filter.mp hf).2)
  rw [List.count_append, List.count_append, hcount, hcount, hcount]
  cases f.severity <;> simp

namespace ReportLine

/-! ## Characters -/

theorem not_mem_ofNat {c : Char} (hc : Text.isAsciiDigit c = false) (n : Nat) : c ∉ Text.ofNat n :=
  fun h => Bool.eq_false_iff.mp hc (Text.isAsciiDigit_of_mem_ofNat h)

theorem not_mem_concat {c : Char} {pieces : List Text} (h : ∀ t ∈ pieces, c ∉ t) :
    c ∉ Text.concat pieces := by
  intro hc
  obtain ⟨t, ht, hmem⟩ := List.mem_flatten.mp hc
  exact h t ht hmem

theorem escape_not_mem_header (s : Severity) (count : Nat) :
    Colour.escape ∉ (header s count).text := by
  refine not_mem_concat ?_
  simp only [List.forall_mem_cons]
  exact ⟨by cases s <;> decide, by decide, not_mem_ofNat rfl count, by decide,
    fun t ht => absurd ht List.not_mem_nil⟩

/-- What stands in the status stands in its words or tells of a missed deadline. -/
theorem not_mem_summary {c : Char} (hdigit : Text.isAsciiDigit c = false)
    (hwords : ∀ t ∈ (["Status: ", " (", " errors, ", " warnings, ", " info)"] : List Text), c ∉ t)
    (hname : ∀ status : Status, c ∉ status.name) {timedOut : Bool}
    (htimeout : timedOut = true → c ∉ (" [TIMEOUT]" : Text)) (status : Status)
    (errors warnings infos : Nat) :
    c ∉ (summary status errors warnings infos timedOut).text := by
  simp only [List.forall_mem_cons] at hwords
  obtain ⟨hstatus, hopen, herrors, hwarnings, hinfos, -⟩ := hwords
  refine not_mem_concat ?_
  simp only [List.forall_mem_cons]
  refine ⟨hstatus, hname status, hopen, not_mem_ofNat hdigit _, herrors, not_mem_ofNat hdigit _,
    hwarnings, not_mem_ofNat hdigit _, hinfos, ?_, fun t ht => absurd ht List.not_mem_nil⟩
  cases timedOut with
  | true => exact htimeout rfl
  | false => exact List.not_mem_nil

theorem escape_not_mem_summary (status : Status) (errors warnings infos : Nat) (timedOut : Bool) :
    Colour.escape ∉ (summary status errors warnings infos timedOut).text :=
  not_mem_summary rfl (by decide) (fun s => by cases s <;> decide) (fun _ => by decide) status
    errors warnings infos

/-- The status tells of a missed deadline just if there is one. -/
theorem tells_timeout_iff (status : Status) (errors warnings infos : Nat) (timedOut : Bool) :
    ("[TIMEOUT]" : Text) <:+: (summary status errors warnings infos timedOut).text ↔
      timedOut = true := by
  cases timedOut with
  | true =>
    refine iff_of_true ?_ rfl
    have hend : ("[TIMEOUT]" : Text) <:+ (" [TIMEOUT]" : Text) := by decide
    exact hend.isInfix.trans (List.infix_of_mem_flatten (List.mem_of_getElem? (i := 9) rfl))
  | false =>
    have hnone : '[' ∉ (summary status errors warnings infos false).text :=
      not_mem_summary rfl (by decide) (fun s => by cases s <;> decide)
        (fun h => absurd h Bool.false_ne_true) status errors warnings infos
    exact iff_of_false (fun h => hnone (h.subset List.mem_cons_self)) Bool.false_ne_true

/-! ## Lines -/

/-- The lines about the findings of one severity, if there are any. -/
def about (s : Severity) (group : List Finding) : List ReportLine :=
  if group = [] then [] else header s group.length :: group.map finding

theorem finding_mem_about_iff {s : Severity} {group : List Finding} {f : Finding} :
    finding f ∈ about s group ↔ f ∈ group := by
  unfold about
  split
  · next h => simp [h]
  · simp

/-- A line as it is, or in bold letters of some colour. -/
def IsStyled (line : ReportLine) (t : Text) : Prop :=
  t = line.text ∨ ∃ c : Colour, t = c.bold line.text

theorem isStyled_styled (line : ReportLine) : line.IsStyled line.styled := by
  cases line with
  | header s count => exact Or.inr ⟨s.colour, rfl⟩
  | finding f => exact Or.inl rfl
  | noFindings => exact Or.inl rfl
  | summary status errors warnings infos timedOut => exact Or.inr ⟨status.colour, rfl⟩

/-- Without its control sequences a line is the same, be it styled or not. -/
theorem plain_styled (line : ReportLine) : Text.plain line.styled = Text.plain line.text := by
  cases line with
  | header s count =>
    have hnone := escape_not_mem_header s count
    exact (Text.plain_bold s.colour hnone).trans (Text.plain_of_not_mem hnone).symm
  | finding f => rfl
  | noFindings => rfl
  | summary status errors warnings infos timedOut =>
    have hnone := escape_not_mem_summary status errors warnings infos timedOut
    exact (Text.plain_bold status.colour hnone).trans (Text.plain_of_not_mem hnone).symm

/-- Only a finding can have control sequences of its own. -/
theorem plain_text {line : ReportLine} (h : ∀ f, line = finding f → Text.plain f.text = f.text) :
    Text.plain line.text = line.text := by
  cases line with
  | header s count => exact Text.plain_of_not_mem (escape_not_mem_header s count)
  | finding f => exact h f rfl
  | noFindings => rfl
  | summary status errors warnings infos timedOut =>
    exact Text.plain_of_not_mem (escape_not_mem_summary status errors warnings infos timedOut)

end ReportLine

namespace Report

/-! ## Groups -/

/-- The findings of one severity in the order of a listing: by line, and those on one line as they
were reported. -/
structure IsGroup (findings : List Finding) (s : Severity) (group : List Finding) : Prop where
  perm : group.Perm (findings.filter fun f => f.severity = s)
  byLine : group.Pairwise fun f g => f.line ≤ g.line
  stable : ∀ n : Int, group.filter (fun f => f.line = n) =
    findings.filter fun f => f.severity = s ∧ f.line = n

theorem isGroup_sorted (r : Report) (s : Severity) : IsGroup r.findings s (r.sorted s) where
  perm := List.mergeSort_perm _ _
  byLine := pairwise_mergeSort_key Finding.line (r.ofSeverity s)
  stable n := by
    rw [sorted, filter_mergeSort_key Finding.line, ofSeverity, List.filter_filter]
    exact List.filter_congr fun f _ => by simp [Bool.and_comm]

theorem IsGroup.length_eq {findings group : List Finding} {s : Severity}
    (h : IsGroup findings s group) : group.length = findings.countP fun f => f.severity = s := by
  rw [h.perm.length_eq, List.countP_eq_length_filter]

theorem length_sorted (r : Report) (s : Severity) : (r.sorted s).length = r.count s :=
  (List.mergeSort_perm _ _).length_eq

theorem groupLines_eq (r : Report) (s : Severity) :
    r.groupLines s = ReportLine.about s (r.sorted s) := by
  rw [groupLines, ReportLine.about, length_sorted]
  exact if_congr List.isEmpty_iff rfl rfl

/-! ## Listings -/

/-- Lines list the findings of a report: group after group below a header with its number, a line
that says so if there are none, and the status, which tells the same numbers and whether a deadline
was missed. -/
structure Lists (r : Report) (group : Severity → List Finding) (listing : List ReportLine) :
    Prop where
  groups : ∀ s, IsGroup r.findings s (group s)
  all : (group .error ++ group .warning ++ group .info).Perm r.findings
  counts : ∀ s, (group s).length = r.findings.countP fun f => f.severity = s
  eq : listing =
    ReportLine.about .error (group .error) ++ ReportLine.about .warning (group .warning) ++
      ReportLine.about .info (group .info) ++ (if r.findings = [] then [.noFindings] else []) ++
      [.summary r.status (group .error).length (group .warning).length (group .info).length
        r.timedOut]
  timeout : ∀ last ∈ listing.getLast?,
    ("[TIMEOUT]" : Text) <:+: last.text ↔ r.timedOut = true

theorem perm_sorted (r : Report) :
    (r.sorted .error ++ r.sorted .warning ++ r.sorted .info).Perm r.findings :=
  (((r.isGroup_sorted .error).perm.append (r.isGroup_sorted .warning).perm).append
    (r.isGroup_sorted .info).perm).trans (perm_of_severities r.findings)

theorem lists_lines (r : Report) : Lists r r.sorted r.lines where
  groups := r.isGroup_sorted
  all := r.perm_sorted
  counts s := (r.isGroup_sorted s).length_eq
  eq := by
    simp only [lines, Severity.all, List.flatMap_cons, List.flatMap_nil, List.append_nil,
      groupLines_eq, length_sorted, List.isEmpty_iff, summaryLine, List.append_assoc]
  timeout last hlast := by
    rw [lines, List.getLast?_append, List.getLast?_singleton, Option.some_or] at hlast
    obtain rfl := Option.some.inj hlast
    exact ReportLine.tells_timeout_iff _ _ _ _ _

/-- No line is about anything but a finding of the report. -/
theorem Lists.mem_findings {r : Report} {group : Severity → List Finding}
    {listing : List ReportLine} (h : Lists r group listing) {f : Finding}
    (hf : .finding f ∈ listing) : f ∈ r.findings := by
  have hnone : .finding f ∉ (if r.findings = [] then [.noFindings] else [] : List ReportLine) := by
    split <;> simp
  rw [h.eq] at hf
  simp only [List.mem_append, hnone, ReportLine.finding_mem_about_iff, or_false,
    List.mem_singleton, reduceCtorEq] at hf
  rw [← h.all.mem_iff, List.mem_append, List.mem_append]
  exact hf

/--
The text form lists the findings of a report. Its lines are those of the listing, of which some are
in bold letters; without control sequences it is the listing without them, and so it is just the
listing if no finding has any.
-/
theorem text_lists_findings (r : Report) : ∃ group : Severity → List Finding,
    Lists r group r.lines ∧
    (∃ styled : List Text, r.renderText = Text.joinWith ['\n'] styled ∧
      List.Forall₂ ReportLine.IsStyled r.lines styled) ∧
    Text.plain r.renderText =
      Text.joinWith ['\n'] (r.lines.map fun line => Text.plain line.text) ∧
    ((∀ f ∈ r.findings, Text.plain f.text = f.text) →
      Text.plain r.renderText = Text.joinWith ['\n'] (r.lines.map ReportLine.text)) := by
  have hplain : Text.plain r.renderText =
      Text.joinWith ['\n'] (r.lines.map fun line => Text.plain line.text) := by
    rw [renderText, Text.plain_joinWith_newline, List.map_map]
    exact congrArg _ (List.map_congr_left fun line _ => line.plain_styled)
  refine ⟨r.sorted, r.lists_lines, ⟨_, rfl, ?_⟩, hplain, fun hfindings => ?_⟩
  · exact List.forall₂_map_right_iff.mpr (List.forall₂_same.mpr fun line _ => line.isStyled_styled)
  · rw [hplain]
    refine congrArg _ (List.map_congr_left fun line hline => ReportLine.plain_text ?_)
    rintro f rfl
    exact hfindings f (r.lists_lines.mem_findings hline)

/-- Two rules warn of one line and one of them of an earlier line as well, and another did not run
in time. -/
theorem text_lists_findings_of_tied_findings :
    ∃ (r : Report) (group : Severity → List Finding), Lists r group r.lines ∧
      (∀ f ∈ r.findings, Text.plain f.text = f.text) ∧
      (group .warning).filter (fun f => f.line = 7) =
        [⟨"b", .warning, 7, "one"⟩, ⟨"a", .warning, 7, "other"⟩] ∧
      (group .warning).length = 3 ∧
      Text.plain r.renderText = Text.joinWith ['\n'] (r.lines.map ReportLine.text) := by
  let r : Report :=
    { results := .ofList
        [("b", [⟨"b", .warning, 7, "one"⟩]),
          ("a", [⟨"a", .warning, 7, "other"⟩, ⟨"a", .warning, 2, "early"⟩]),
          ("timeout", [⟨"timeout", .error, 0, "late"⟩])]
      timedOut := true, skipped := ["c"] }
  obtain ⟨group, hlists, -, -, hplain⟩ := text_lists_findings r
  have hfindings : ∀ f ∈ r.findings, Text.plain f.text = f.text := by decide +kernel
  refine ⟨r, group, hlists, hfindings, ?_, ?_, hplain hfindings⟩
  · rw [(hlists.groups .warning).stable]
    decide +kernel
  · rw [hlists.counts]
    decide +kernel

end Report

end Drydock
