/-
  What the rule about secrets sees of values. Of a value it only sees whether it is a placeholder
  (`secretsAmong_congr`), and values come to it as they were before they were put in quotes. So if
  the values of one step are replaced by others, placeholders by placeholders and literals by
  literals, its findings stay as they are (`literal_values_unseen`).
-/
import Drydock.Proofs.Dockerfile.KeyValues
import Drydock.Proofs.Rule.Access

namespace Drydock.Rule

open Instruction (pairText wordEntry? writtenPairs)
open OrderedMap (withValue)

/-- Two pairs set one name, and both values are placeholders or none is. A name that has an equals
sign ends there, and what stands behind the sign belongs to the value. -/
inductive SetsAlike : Text × Text → Text × Text → Prop
  | named {name value value' : Text} (hname : '=' ∉ name)
      (h : isPlaceholder value = isPlaceholder value') : SetsAlike (name, value) (name, value')
  | divided {name rest value value' : Text} (hname : '=' ∉ name)
      (h : isPlaceholder (rest ++ '=' :: value) = isPlaceholder (rest ++ '=' :: value')) :
    SetsAlike (name ++ '=' :: rest, value) (name ++ '=' :: rest, value')

section Values

variable {pairs pairs' : List (Text × Text)} {i i' : Instruction}

/-- The rule sees names, and of their values whether they are placeholders. -/
theorem secretsAmong_congr {m n : OrderedMap Text Text}
    (h : m.mapValues isPlaceholder = n.mapValues isPlaceholder) :
    secretsAmong m = secretsAmong n := by
  have hseen : ∀ k : OrderedMap Text Text, secretsAmong k =
      ((k.mapValues isPlaceholder).entries.filter fun e => isSecretName e.1 && !e.2).map
        Prod.fst := by
    intro k
    show _ = ((k.entries.map (withValue isPlaceholder)).filter _).map Prod.fst
    rw [List.filter_map, List.map_map]
    rfl
  rw [hseen, hseen, h]

/-- What the rule sees of a word: the name, and whether the value is a placeholder. -/
def seenIn? (word : Text) : Option (Text × Bool) :=
  wordEntry? word |>.map (withValue isPlaceholder)

theorem seenIn?_append {name value value' : Text} (hname : '=' ∉ name)
    (h : isPlaceholder value = isPlaceholder value') :
    seenIn? (name ++ '=' :: value) = seenIn? (name ++ '=' :: value') := by
  unfold seenIn?
  rw [Instruction.wordEntry?_append hname, Instruction.wordEntry?_append hname]
  split
  · rfl
  · simp only [Option.map_some, withValue, h]

theorem SetsAlike.seenIn?_eq {e e' : Text × Text} (h : SetsAlike e e') :
    seenIn? (pairText e) = seenIn? (pairText e') := by
  cases h with
  | named hname h => exact seenIn?_append hname h
  | divided hname h =>
    unfold pairText
    rw [List.append_assoc, List.append_assoc]
    exact seenIn?_append hname h

theorem seen_eq (h : List.Forall₂ SetsAlike pairs pairs') :
    pairs.filterMap (fun e => seenIn? (pairText e)) =
      pairs'.filterMap fun e => seenIn? (pairText e) := by
  induction h with
  | nil => rfl
  | cons hpair _ ih => rw [List.filterMap_cons, List.filterMap_cons, hpair.seenIn?_eq, ih]

theorem mapValues_of_written (h : i.raw = writtenPairs pairs) :
    i.keyValues.mapValues isPlaceholder =
      .ofList (pairs.filterMap fun e => seenIn? (pairText e)) := by
  rw [Instruction.keyValues_of_written h, OrderedMap.mapValues_ofList, List.map_filterMap]
  rfl

/-- Steps that set names alike give literal values to the same secrets. -/
theorem literalSecrets_congr (hopcode : i'.opcode = i.opcode) (hraw : i.raw = writtenPairs pairs)
    (hraw' : i'.raw = writtenPairs pairs') (h : List.Forall₂ SetsAlike pairs pairs') :
    literalSecrets i' = literalSecrets i := by
  have hvalues : i.keyValues.mapValues isPlaceholder = i'.keyValues.mapValues isPlaceholder := by
    rw [mapValues_of_written hraw, mapValues_of_written hraw', seen_eq h]
  rw [literalSecrets, literalSecrets, hopcode, secretsAmong_congr hvalues]

end Values

/--
Let two steps of one kind stand at one place and on one line, and let each have pairs as its text,
in double quotes with a backslash in front of each double quote and backslash. If the pairs set the
same names one after the other, and at each place both values are placeholders or none is, then the
rule about secrets finds the same in both files, with all that it says. A name that has an equals
sign is the part in front of it, and its value what stands behind the sign.
-/
theorem literal_values_unseen (front back : List Instruction) {i i' : Instruction}
    {pairs pairs' : List (Text × Text)} (hopcode : i'.opcode = i.opcode) (hline : i'.line = i.line)
    (hraw : i.raw = writtenPairs pairs) (hraw' : i'.raw = writtenPairs pairs')
    (h : List.Forall₂ SetsAlike pairs pairs') :
    ∃ found, envNoSecrets.inspect (front ++ i :: back) = .ok found ∧
      envNoSecrets.inspect (front ++ i' :: back) = .ok found := by
  have hremark : secretRemark i' = secretRemark i := by
    funext name
    rw [secretRemark, secretRemark, hopcode, hline]
  have hremarks : secretRemarks (front ++ i' :: back) = secretRemarks (front ++ i :: back) := by
    unfold secretRemarks
    rw [List.flatMap_append, List.flatMap_append, List.flatMap_cons, List.flatMap_cons,
      literalSecrets_congr hopcode hraw hraw' h, hremark]
  rw [envNoSecrets_eq, ofRemarks]
  dsimp only
  rw [hremarks]
  exact ⟨_, rfl, rfl⟩

/-- A password and another one, and two placeholders behind them. -/
theorem literal_values_unseen_of_passwords :
    ∃ (front back : List Instruction) (i i' : Instruction) (pairs pairs' : List (Text × Text))
      (found : List Finding),
      i'.opcode = i.opcode ∧ i'.line = i.line ∧ i.raw = writtenPairs pairs ∧
      i'.raw = writtenPairs pairs' ∧ List.Forall₂ SetsAlike pairs pairs' ∧
      envNoSecrets.inspect (front ++ i :: back) = .ok found ∧
      envNoSecrets.inspect (front ++ i' :: back) = .ok found ∧
      found = [⟨"env-no-secrets", .error, 2, secretMessage .env "DB_PASSWORD"⟩] := by
  let base : Instruction :=
    { opcode := .base, arguments := ["a"], line := 1, endLine := 1, raw := "a" }
  let i : Instruction :=
    { opcode := .env, arguments := ["\"DB_PASSWORD=s3cret\"", "\"TOKEN=\"", "\"A=B=1\""], line := 2,
      endLine := 2, raw := "\"DB_PASSWORD=s3cret\" \"TOKEN=\" \"A=B=1\"" }
  let i' : Instruction :=
    { opcode := .env,
      arguments := ["\"DB_PASSWORD=KEY=", "\\\"y\\\"\"", "\"TOKEN=changeme\"", "\"A=B=2\""],
      line := 2, endLine := 2,
      raw := "\"DB_PASSWORD=KEY= \\\"y\\\"\" \"TOKEN=changeme\" \"A=B=2\"" }
  let pairs : List (Text × Text) := [("DB_PASSWORD", "s3cret"), ("TOKEN", ""), ("A=B", "1")]
  let pairs' : List (Text × Text) :=
    [("DB_PASSWORD", "KEY= \"y\""), ("TOKEN", "changeme"), ("A=B", "2")]
  have hopcode : i'.opcode = i.opcode := rfl
  have hline : i'.line = i.line := rfl
  have hraw : i.raw = writtenPairs pairs := by decide
  have hraw' : i'.raw = writtenPairs pairs' := by decide
  have hpairs : List.Forall₂ SetsAlike pairs pairs' :=
    .cons (.named (by decide) (by decide +kernel)) <|
      .cons (.named (by decide) (by decide +kernel)) <|
        .cons (@SetsAlike.divided "A" "B" "1" "2" (by decide) (by decide +kernel)) .nil
  obtain ⟨found, hfound, hfound'⟩ := literal_values_unseen [base] [] hopcode hline hraw hraw' hpairs
  have hknown : envNoSecrets.inspect ([base] ++ i :: []) =
      .ok [⟨"env-no-secrets", .error, 2, secretMessage .env "DB_PASSWORD"⟩] := by decide +kernel
  exact ⟨[base], [], i, i', pairs, pairs', found, hopcode, hline, hraw, hraw', hpairs, hfound,
    hfound', Except.ok.inj (hfound.symm.trans hknown)⟩

/-- If the name of a pair has an equals sign, two literal values are not found alike: behind the
sign one of them makes a placeholder and the other does not. -/
theorem value_seen_behind_divided_name :
    ∃ (base i i' : Instruction) (name value value' : Text),
      i.opcode = .env ∧ i'.opcode = i.opcode ∧ i'.line = i.line ∧
      i.raw = writtenPairs [(name, value)] ∧ i'.raw = writtenPairs [(name, value')] ∧
      isPlaceholder value = false ∧ isPlaceholder value' = false ∧
      envNoSecrets.inspect [base, i] = .ok [] ∧
      envNoSecrets.inspect [base, i'] =
        .ok [⟨"env-no-secrets", .error, 2, secretMessage .env "API_KEY"⟩] := by
  let base : Instruction :=
    { opcode := .base, arguments := ["a"], line := 1, endLine := 1, raw := "a" }
  let step (word : Text) : Instruction :=
    { opcode := .env, arguments := [word], line := 2, endLine := 2, raw := word }
  exact ⟨base, step "\"API_KEY=<=a>\"", step "\"API_KEY=<=b\"", "API_KEY=<", "a>", "b", rfl, rfl,
    rfl, by decide, by decide, by decide +kernel, by decide +kernel, by decide +kernel,
    by decide +kernel⟩

end Drydock.Rule
