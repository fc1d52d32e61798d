/-
  Short names of images. An image of the default registry may be written with one of the registry's
  names in front, and an official image with the collection of these in front of its own name. The
  short name is without them in all spellings (`shortName_official`), and no other name is shorter
  than it is written (`length_shortName_lt`, `shortName_of_plain`).
-/
import Drydock.Proofs.Dockerfile.Image
import Drydock.Proofs.Text.Case

namespace Drydock

/-! ## Fronts of texts -/

namespace Text

theorem dropFront?_eq_none_iff {front t : Text} : dropFront? front t = none ↔ ¬front <+: t := by
  rw [Option.eq_none_iff_forall_ne_some]
  constructor
  · rintro h ⟨rest, rfl⟩
    exact h rest (dropFront?_eq_some_iff.mpr rfl)
  · rintro h rest hrest
    exact h ⟨rest, (dropFront?_eq_some_iff.mp hrest).symm⟩

end Text

/-! ## Short names -/

namespace ImageReference

/-- What may stand in front of the name of an official image. -/
def officialFronts : List Text :=
  ["", "library/", "docker.io/", "docker.io/library/", "index.docker.io/",
    "index.docker.io/library/", "registry-1.docker.io/", "registry-1.docker.io/library/"]

/-- A name begins with a name of the default registry, or with the collection of official images. -/
def HasDefaultFront (name : Text) : Prop :=
  ∃ front ∈ ("library/" : Text) :: defaultRegistries, front <+: name

instance (name : Text) : Decidable (HasDefaultFront name) :=
  inferInstanceAs (Decidable (∃ front ∈ _, _))

variable {r : ImageReference} {front name rest : Text}

theorem withoutFront_append (front rest : Text) : withoutFront front (front ++ rest) = rest := by
  rw [withoutFront, Text.dropFront?_eq_some_iff.mpr rfl]
  rfl

theorem withoutFront_of_not_prefix (h : ¬front <+: name) : withoutFront front name = name := by
  rw [withoutFront, Text.dropFront?_eq_none_iff.mpr h]
  rfl

theorem length_withoutFront_le (front name : Text) :
    (withoutFront front name).length ≤ name.length := by
  unfold withoutFront
  cases hrest : Text.dropFront? front name with
  | none => exact le_rfl
  | some rest =>
    rw [Text.dropFront?_eq_some_iff.mp hrest, List.length_append]
    exact Nat.le_add_left _ _

/-- A name without the name of the default registry in front. -/
def withoutRegistry (name : Text) : Text :=
  (defaultRegistries.findSome? fun registry => Text.dropFront? registry name).getD name

theorem shortName_eq (r : ImageReference) :
    r.shortName = withoutFront "library/" (withoutRegistry r.name) := rfl

theorem withoutRegistry_of_plain (h : ∀ registry ∈ defaultRegistries, ¬registry <+: name) :
    withoutRegistry name = name := by
  have hnone : (defaultRegistries.findSome? fun registry => Text.dropFront? registry name) = none :=
    List.findSome?_eq_none_iff.mpr fun registry hregistry =>
      Text.dropFront?_eq_none_iff.mpr (h registry hregistry)
  rw [withoutRegistry, hnone]
  rfl

theorem withoutRegistry_append {registry : Text} (h : registry ∈ defaultRegistries) (rest : Text) :
    withoutRegistry (registry ++ rest) = rest := by
  simp only [defaultRegistries, List.mem_cons, List.not_mem_nil, or_false] at h
  rcases h with rfl | rfl | rfl <;> rfl

/-- Each front is a registry or nothing, and the collection of official images or nothing. -/
theorem exists_of_mem_officialFronts (h : front ∈ officialFronts) :
    ∃ registry ∈ ("" : Text) :: defaultRegistries, ∃ collection ∈ (["", "library/"] : List Text),
      front = registry ++ collection := by
  have hall : ∀ front ∈ officialFronts,
      ∃ registry ∈ ("" : Text) :: defaultRegistries,
        ∃ collection ∈ (["", "library/"] : List Text), front = registry ++ collection := by
    decide +kernel
  exact hall front h

/-- The short name of an official image is the same in all spellings. -/
theorem shortName_official (hfront : front ∈ officialFronts) (h : ¬HasDefaultFront name)
    (hr : r.name = front ++ name) : r.shortName = name := by
  obtain ⟨registry, hregistry, collection, hcollection, rfl⟩ := exists_of_mem_officialFronts hfront
  have hlibrary : ¬("library/" : Text) <+: name := fun hname => h ⟨_, .head _, hname⟩
  have hplain : ∀ registry ∈ defaultRegistries, ¬registry <+: name := fun registry hmem hname =>
    h ⟨registry, .tail _ hmem, hname⟩
  have hcollected : ∀ registry ∈ defaultRegistries, ¬registry <+: collection ++ name := by
    simp only [List.mem_cons, List.not_mem_nil, or_false] at hcollection
    rcases hcollection with rfl | rfl
    · exact hplain
    · intro registry hmem hname
      simp only [defaultRegistries, List.mem_cons, List.not_mem_nil, or_false] at hmem
      rcases hmem with rfl | rfl | rfl <;>
        exact absurd (List.cons_prefix_cons.mp hname).1 (by decide)
  have hregistered : withoutRegistry (registry ++ (collection ++ name)) = collection ++ name := by
    rcases List.mem_cons.mp hregistry with rfl | hregistry
    · exact withoutRegistry_of_plain hcollected
    · exact withoutRegistry_append hregistry _
  rw [shortName_eq, hr, List.append_assoc, hregistered]
  simp only [List.mem_cons, List.not_mem_nil, or_false] at hcollection
  rcases hcollection with rfl | rfl
  · exact withoutFront_of_not_prefix hlibrary
  · exact withoutFront_append _ _

/-- A name is its own short name unless it begins with a default front. -/
theorem shortName_of_plain (h : ¬HasDefaultFront r.name) : r.shortName = r.name :=
  shortName_official (.head _) h rfl

theorem length_shortName_lt (h : HasDefaultFront r.name) : r.shortName.length < r.name.length := by
  rw [shortName_eq]
  by_cases hregistered : ∃ registry ∈ defaultRegistries, registry <+: r.name
  · obtain ⟨registry, hregistry, rest, hrest⟩ := hregistered
    have hsize : 0 < registry.length := by
      have hall : ∀ registry ∈ defaultRegistries, 0 < registry.length := by decide
      exact hall registry hregistry
    have hle := length_withoutFront_le "library/" rest
    rw [← hrest, withoutRegistry_append hregistry, List.length_append]
    omega
  · obtain ⟨front, hfront, rest, hrest⟩ := h
    have hplain : ∀ registry ∈ defaultRegistries, ¬registry <+: r.name := fun registry hmem hname =>
      hregistered ⟨registry, hmem, hname⟩
    rcases List.mem_cons.mp hfront with rfl | hmem
    · rw [withoutRegistry_of_plain hplain, ← hrest, withoutFront_append, List.length_append]
      exact Nat.lt_add_of_pos_left (by decide)
    · exact absurd ⟨rest, hrest⟩ (hplain front hmem)

/-! ## Lower case -/

/-- Each front is in small letters, and what stands behind it has its lower case for itself. -/
theorem lower_official (h : front ∈ officialFronts) (name : Text) :
    Text.lower (front ++ name) = front ++ Text.lower name := by
  have hall : ∀ front ∈ officialFronts, Text.capitalSigma ∉ front ∧
      Text.meetsCased front.reverse = false ∧ Text.lower front = front := by decide +kernel
  obtain ⟨hsigma, hend, hlower⟩ := hall front h
  rw [Text.lower_append hsigma hend, hlower]

/-! ## Spellings -/

namespace Written

variable {w : Written}

/-- The same image with something in front of its name. -/
def respell (w : Written) (front : Text) : Written := { w with name := front ++ w.name }

theorem text_respell (w : Written) (front : Text) : (w.respell front).text = front ++ w.text := by
  simp [text, named, respell]

/-- An image whose name has no colon can be told in all its official spellings. -/
theorem IsLegible.respell (h : w.IsLegible) (hcolon : ':' ∉ w.name) (hfront : front ∈ officialFronts) :
    (w.respell front).IsLegible := by
  have hall : ∀ front ∈ officialFronts, ':' ∉ front ∧ '@' ∉ front ∧ '$' ∉ front := by decide
  obtain ⟨hnoColon, hnoAt, hnoDollar⟩ := hall front hfront
  have hflag : Instruction.isFlag (front ++ w.name) = false := by
    simp only [officialFronts, List.mem_cons, List.not_mem_nil, or_false] at hfront
    rcases hfront with rfl | rfl | rfl | rfl | rfl | rfl | rfl | rfl
    · exact h.name_not_flag
    all_goals rfl
  have hnotIn {c : Char} {t : Text} (hc : c ∉ front) (ht : c ∉ t) : c ∉ front ++ t :=
    List.mem_append.not.mpr (not_or.mpr ⟨hc, ht⟩)
  exact
    { flags := h.flags
      name_not_flag := hflag
      at_not_mem_name := hnotIn hnoAt h.at_not_mem_name
      colon_not_mem_name := fun _ hmem =>
        hnotIn hnoColon hcolon ((List.rtakeWhile_suffix _ _).subset hmem)
      tag := h.tag
      dollar_not_mem := text_respell w front ▸ hnotIn hnoDollar h.dollar_not_mem }

/-- The short name of an official image is its own name in small letters, however it is spelled. -/
theorem shortName_respell (h : ¬HasDefaultFront (Text.lower w.name)) (hfront : front ∈ officialFronts)
    (line : Nat) : ((w.respell front).image line).shortName = Text.lower w.name :=
  shortName_official hfront h (lower_official hfront w.name)

end Written

end ImageReference

end Drydock
