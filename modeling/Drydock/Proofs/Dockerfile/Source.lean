/-
  Where a Dockerfile comes from. A text whose line ends are unified has the lines of the text
  itself, and the octets of a text are the text again; so a Dockerfile is read alike from an input
  and from a file that holds it.
-/
import Drydock.Proofs.Dockerfile.Concatenation
import Drydock.Proofs.Text.Utf8

namespace Drydock

theorem Text.unifyLineEnds_cons {c : Char} (h : c ≠ '\r') (t : Text) :
    unifyLineEnds (c :: t) = c :: unifyLineEnds t := by
  rw [unifyLineEnds]
  · exact fun _ hc _ => h hc
  · exact h

theorem Text.head_unifyLineEnds (t : Text) :
    (unifyLineEnds t).head? = t.head?.map fun c => if c = '\r' then '\n' else c := by
  fun_cases unifyLineEnds t with
  | case1 => rfl
  | case2 t => rfl
  | case3 t => rfl
  | case4 c t hpair hreturn =>
    have hc : c ≠ '\r' := fun h => hreturn h
    rw [List.head?_cons, List.head?_cons, Option.map_some, if_neg hc]

namespace Dockerfile

theorem physicalLines_unifyLineEnds (t : Text) :
    physicalLines (Text.unifyLineEnds t) = physicalLines t := by
  by_cases hmark : t.head? = some mark
  · obtain ⟨rest, rfl⟩ := List.head?_eq_some_iff.mp hmark
    rw [Text.unifyLineEnds_cons (by decide)]
    exact Text.lines_unifyLineEnds rest
  · have hunified : (Text.unifyLineEnds t).head? ≠ some mark := by
      rw [Text.head_unifyLineEnds]
      intro h
      obtain ⟨c, hc, hmapped⟩ := Option.map_eq_some_iff.mp h
      split at hmapped
      · exact absurd hmapped (by decide)
      · exact hmark (hmapped ▸ hc)
    rw [physicalLines, physicalLines, withoutMark_of_head hunified, withoutMark_of_head hmark,
      Text.lines_unifyLineEnds]

theorem parse_unifyLineEnds (t : Text) : parse (Text.unifyLineEnds t) = parse t := by
  rw [parse, physicalLines_unifyLineEnds, parse]

theorem ofOctets_encode (t : Text) : ofOctets (Text.Utf8.encode t) = parse t := by
  rw [ofOctets, Text.Utf8.decode_encode]

end Dockerfile

end Drydock
