/-
  Keys and values in double quotes. Words that are written like this are read back as they were,
  and each is divided at its first equals sign (`wordEntry?_append`). So pairs that are written like
  this, with spaces between them, are read back as the map made from them
  (`checkedKeyValues_of_written`).
-/
import Drydock.Dockerfile.Parser
import Drydock.Proofs.Dockerfile.Access
import Drydock.Proofs.Dockerfile.Words
import Drydock.Proofs.OrderedMap

namespace Drydock

namespace Instruction

variable {i : Instruction} {pairs : List (Text × Text)}

/-- A key and its value with an equals sign between them. -/
def pairText (e : Text × Text) : Text := e.1 ++ '=' :: e.2

/-- Pairs, each in double quotes, with single spaces between them. -/
def writtenPairs (pairs : List (Text × Text)) : Text :=
  Text.joinWith " " (pairs.map fun e => Text.inQuotes (pairText e))

theorem shellWords_writtenPairs (pairs : List (Text × Text)) :
    Text.shellWords (writtenPairs pairs) = pairs.map pairText := by
  have hne : ∀ t ∈ pairs.map pairText, t ≠ [] := by
    intro t ht
    obtain ⟨e, -, rfl⟩ := List.mem_map.mp ht
    simp [pairText]
  have hwritten : List.Forall₂ Text.IsWritten (pairs.map pairText)
      ((pairs.map pairText).map Text.inQuotes) :=
    List.forall₂_map_right_iff.mpr (List.forall₂_same.mpr fun t _ => .inQuotes t)
  have hwords := Text.shellWords_joinWith hwritten hne
  rwa [List.map_map] at hwords

/-- A step with written pairs sets what the words of these pairs give: it never has the older form,
since its first word has an equals sign. -/
theorem keyValues_of_written (h : i.raw = writtenPairs pairs) :
    i.keyValues = .ofList (pairs.filterMap fun e => wordEntry? (pairText e)) := by
  unfold keyValues
  rw [h, shellWords_writtenPairs]
  cases pairs with
  | nil => rfl
  | cons e rest =>
    have hequals : (pairText e).contains '=' = true := by simp [pairText]
    rw [List.map_cons]
    dsimp only
    rw [hequals, Bool.not_true, Bool.and_false, if_neg Bool.false_ne_true, ← List.map_cons,
      List.filterMap_map]
    rfl

/-- A word is divided at its first equals sign, and sets nothing if that comes first of all. -/
theorem wordEntry?_append {key : Text} (h : '=' ∉ key) (value : Text) :
    wordEntry? (key ++ '=' :: value) = if key.isEmpty then none else some (key, value) := by
  unfold wordEntry?
  rw [Text.cut_append_of_not_mem h]
  rfl

theorem wordEntry?_pairText {e : Text × Text} (hne : e.1 ≠ []) (hequals : '=' ∉ e.1) :
    wordEntry? (pairText e) = some e := by
  rw [pairText, wordEntry?_append hequals, if_neg (by simpa using hne)]

/--
Let a step have pairs as its text, each in double quotes, with a backslash in front of each double
quote and backslash, and single spaces between them. If no key is empty and none has an equals sign,
the step sets just these pairs, whatever else keys and values hold and whichever step it is: reading
them raises no fault and gives the map into which they are inserted in turn, in which each key
stands where it first comes and has the value that comes last with it.
-/
theorem checkedKeyValues_of_written (i : Instruction) {pairs : List (Text × Text)}
    (hkeys : ∀ e ∈ pairs, e.1 ≠ [] ∧ '=' ∉ e.1) (h : i.raw = writtenPairs pairs) :
    i.checkedKeyValues = .ok (.ofList pairs) ∧
      (OrderedMap.ofList pairs).keys = (pairs.map Prod.fst).eraseDups ∧
      ∀ key, (OrderedMap.ofList pairs).get? key =
        (pairs.filter fun e => e.1 = key).getLast?.map Prod.snd := by
  have hentries : pairs.filterMap (fun e => wordEntry? (pairText e)) = pairs := by
    rw [List.filterMap_congr fun e he => wordEntry?_pairText (hkeys e he).1 (hkeys e he).2,
      List.filterMap_some]
  refine ⟨?_, OrderedMap.keys_ofList pairs, OrderedMap.get?_ofList pairs⟩
  rw [checkedKeyValues_eq, keyValues_of_written h, hentries]

/-- Values hold quotes, backslashes, blanks and equals signs, one is empty, and one key comes twice.
-/
theorem checkedKeyValues_of_written_path :
    ∃ (d : Dockerfile) (base i : Instruction) (pairs : List (Text × Text)),
      Dockerfile.parse
        "FROM a\nENV \"PATH=say \\\"x\\\"\" \"B '=\" \"PATH=c:\\\\d = e\"\n" = .ok d ∧
      d.instructions = [base, i] ∧ (∀ e ∈ pairs, e.1 ≠ [] ∧ '=' ∉ e.1) ∧
      i.raw = writtenPairs pairs ∧ i.checkedKeyValues = .ok (.ofList pairs) ∧
      (OrderedMap.ofList pairs).entries =
        ([("PATH", "c:\\d = e"), ("B '", "")] : List (Text × Text)) := by
  let base : Instruction :=
    { opcode := .base, arguments := ["a"], line := 1, endLine := 1, raw := "a" }
  let i : Instruction :=
    { opcode := .env,
      arguments := ["\"PATH=say", "\\\"x\\\"\"", "\"B", "'=\"", "\"PATH=c:\\\\d", "=", "e\""],
      line := 2, endLine := 2, raw := "\"PATH=say \\\"x\\\"\" \"B '=\" \"PATH=c:\\\\d = e\"" }
  let pairs : List (Text × Text) := [("PATH", "say \"x\""), ("B '", ""), ("PATH", "c:\\d = e")]
  have hkeys : ∀ e ∈ pairs, e.1 ≠ [] ∧ '=' ∉ e.1 := by decide
  have hraw : i.raw = writtenPairs pairs := by decide
  exact ⟨{ instructions := [base, i], warnings := [], escape := .backslash }, base, i, pairs,
    by decide +kernel, rfl, hkeys, hraw, (checkedKeyValues_of_written i hkeys hraw).1, by decide⟩

end Instruction

end Drydock
