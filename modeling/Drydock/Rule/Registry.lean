/-
  The rules by name, and the selection of them that a configuration asks for: all or the enabled
  ones, less the disabled ones, each with its own severity or the one it is given.
-/
import Drydock.Rule.Artifacts
import Drydock.Rule.BaseImage
import Drydock.Rule.BuildContext
import Drydock.Rule.Commands
import Drydock.Rule.Documentation
import Drydock.Rule.IgnoreFile
import Drydock.Rule.Secrets
import Drydock.Rule.User

namespace Drydock

/-- What is told about a rule in a listing. -/
structure RuleInfo where
  id : Text
  name : Text
  description : Text
  category : Text
  severity : Severity
deriving DecidableEq, Repr

/-- What rules need to know beyond the steps. -/
structure RuleOptions where
  denylist : List Text := Rule.defaultDenylist
  threshold : Float := Rule.defaultThreshold
  search : Rule.IgnoreSearch := {}

/-- Why no rules can be selected. -/
inductive SelectionError where
  | unknownIds (ids : List Text)
  | thresholdOutside (threshold : Float)
  | unknownSeverity (id : Text)

namespace SelectionError

/-- The wording of an error. -/
def message : SelectionError → Text
  | unknownIds ids => "Unknown rule ids: " ++ Text.joinWith ", " ids
  | thresholdOutside threshold =>
    "documentation threshold must be within [0, 1], got " ++ Number.floatText threshold
  | unknownSeverity id =>
    Text.concat
      ["Severity override for '", id, "' must be one of: ",
        Text.joinWith ", " (Severity.all.map fun s => Text.lower s.name)]

end SelectionError

/-- A rule that can be selected: what is told about it, and how it is made. -/
structure RuleEntry where
  info : RuleInfo
  build : RuleOptions → Except SelectionError Rule

namespace Registry

/-- The entry of a rule that takes no options. -/
def plain (r : Rule) (name description category : Text) : RuleEntry :=
  ⟨⟨r.id, name, description, category, r.severity⟩, fun _ => .ok r⟩

/-- The rule about comments, provided that the threshold is a share. -/
def buildDocumented (o : RuleOptions) : Except SelectionError Rule :=
  if Rule.isShare o.threshold then .ok (Rule.documented o.threshold)
  else .error (.thresholdOutside o.threshold)

/-- All rules, in the order in which they are listed and run. -/
def entries : List RuleEntry :=
  [⟨⟨"minimal-base-image", "MinimalBaseImageRule",
      "Warns when the final stage builds on a full distribution image.", "size", .warning⟩,
      fun o => .ok (Rule.minimalBaseImage o.denylist)⟩,
    plain Rule.explicitTag "ExplicitTagRule"
      "Requires every FROM to pin a tag other than ``latest`` or a digest." "reproducibility",
    plain Rule.layerCachingOrder "LayerCachingOrderRule"
      "Flags whole-context copies placed before dependency installation." "caching",
    plain Rule.consolidateRun "ConsolidateRunRule"
      "Flags consecutive RUN instructions that each invoke a package manager." "size",
    plain Rule.cleanupArtifacts "CleanupArtifactsRule"
      "Flags downloaded or extracted files that are deleted in a later RUN." "size",
    plain Rule.specificCopy "SpecificCopyRule"
      "Flags COPY/ADD instructions that take the entire build context." "caching",
    plain Rule.nonRootUser "NonRootUserRule"
      "Requires the final stage to switch to a non-root USER." "security",
    plain Rule.envNoSecrets "EnvNoSecretsRule"
      "Flags ENV (and ARG default) values that bake secrets into the image." "security",
    ⟨⟨"documented", "DocumentedRule",
      "Reports when too few instructions carry an explanatory comment.", "maintainability", .info⟩,
      buildDocumented⟩,
    ⟨⟨"dockerignore-present", "DockerignorePresentRule",
      "Warns when no ignore file accompanies the build context.", "size", .warning⟩,
      fun o => .ok (Rule.dockerignorePresent o.search)⟩,
    plain Rule.hasTestStep "HasTestStepRule"
      "Suggests running the test suite during the image build." "maintainability"]

/-- What is told about all rules. -/
def infos : List RuleInfo := entries.map RuleEntry.info

/-- The names of all rules. -/
def ids : List Text := infos.map RuleInfo.id

end Registry

/-- Which rules are wanted, and which severities they are given. -/
structure Selection where
  /-- the rules to run; all of them if this is absent -/
  enable : Option (List Text) := none
  disable : List Text := []
  severity : OrderedMap Text Text := .empty
deriving DecidableEq, Repr

namespace Selection

/-- The names that a selection mentions. -/
def mentioned (s : Selection) : List Text := s.enable.getD [] ++ s.disable ++ s.severity.keys

/-- The names among those mentioned that no rule has, sorted and each once. -/
def unknown (s : Selection) : List Text :=
  Text.sort (s.mentioned.filter fun id => !Registry.ids.contains id).eraseDups

/-- Whether a selection wants a rule. -/
def wants (s : Selection) (id : Text) : Bool :=
  s.enable.all (·.contains id) && !s.disable.contains id

/-- A rule with the severity that it is given, if any. -/
def adjust (s : Selection) (r : Rule) : Except SelectionError Rule :=
  match s.severity.get? r.id with
  | none => .ok r
  | some name =>
    match Severity.ofName? (Text.upper name) with
    | some severity => .ok (r.withSeverity severity)
    | none => .error (.unknownSeverity r.id)

/-- The rules that a selection wants, in the order of the registry. -/
def rules (s : Selection) (o : RuleOptions) : Except SelectionError (List Rule) :=
  if s.unknown.isEmpty then
    (Registry.entries.filter fun e => s.wants e.info.id).mapM fun e => e.build o >>= s.adjust
  else .error (.unknownIds s.unknown)

end Selection

end Drydock
