/-
  What a command does, judged by its text: installing packages, installing the dependencies of a
  project, running tests. Wrapper scripts and commands held in variables are not seen through.
-/
import Drydock.Pattern
import Drydock.Shell.Command

namespace Drydock

namespace Pattern

/-! ## Building blocks -/

/-- Short or long flags, each with blanks behind it. -/
def flags : Pattern :=
  .many (sequence [literal "-", many1 fun c => !Text.isBlank c, blanks])

/-- A tool, perhaps flags, and one of its verbs. -/
def flagged (tools verbs : List Text) : Pattern :=
  sequence [.edge, anyText tools, blanks, flags, anyText verbs, .edge]

/-- Text that does not leave the command. -/
def withinCommand : Pattern :=
  .many (.one fun c => c != '&' && c != ';' && c != '|' && c != '\n')

/-- A tool, and one of several words later in the same command. -/
def followed (tools words : List Text) : Pattern :=
  sequence [.edge, anyText tools, .edge, withinCommand, .edge, anyText words, .edge]

/-- A phrase, and later in the same command a flag that names a file of requirements. -/
def withRequirements (words : List (List Text)) : Pattern :=
  sequence [phrase words, withinCommand, .one Text.isBlank, anyText ["-r", "--requirement"], .edge]

/-! ## The commands that are known -/

/-- Package managers of systems and languages when they install, update or fetch. -/
def packageInstall : Pattern := anyOf
  [flagged ["apt-get", "apt", "aptitude"] ["install", "update", "upgrade", "dist-upgrade"],
    flagged ["apk"] ["add", "update", "upgrade"],
    flagged ["yum", "dnf", "microdnf", "tdnf", "zypper"] ["install", "update", "upgrade", "in"],
    phrase [["pip", "pip3"], ["install"]],
    phrase [["python", "python3"], ["-m"], ["pip"], ["install"]],
    phrase [["npm", "pnpm"], ["install", "ci", "i", "add"]],
    phrase [["yarn"], ["install", "add"]],
    phrase [["gem", "conda", "mamba", "micromamba"], ["install"]],
    phrase [["bundle"], ["install"]],
    phrase [["composer"], ["install", "require"]],
    phrase [["poetry", "pipenv"], ["install"]],
    phrase [["go"], ["get", "install"]],
    phrase [["go"], ["mod"], ["download"]],
    phrase [["cargo"], ["install", "fetch"]]]

/-- Package managers of languages when they install what a project's manifests ask for. -/
def dependencyInstall : Pattern := anyOf
  [withRequirements [["pip", "pip3"], ["install"]],
    withRequirements [["python", "python3"], ["-m"], ["pip"], ["install"]],
    phrase [["poetry", "pipenv"], ["install"]],
    phrase [["uv"], ["sync"]],
    phrase [["uv"], ["pip"], ["sync"]],
    phrase [["npm", "pnpm"], ["ci", "install", "i"]],
    phrase [["yarn"], ["install"]],
    phrase [["bundle"], ["install"]],
    phrase [["composer"], ["install"]],
    phrase [["go"], ["mod"], ["download"]],
    phrase [["cargo"], ["fetch"]],
    followed ["mvn"] ["dependency:go-offline", "dependency:resolve"]]

/-- Test runners, and build tools that are asked to test. -/
def testRunner : Pattern := anyOf
  [phrase [["pytest", "py.test", "tox", "nox"]],
    phrase [["python", "python3"], ["-m"], ["pytest", "unittest"]],
    phrase [["npm", "pnpm", "yarn"], ["test"]],
    phrase [["npm", "pnpm", "yarn"], ["run"], ["test"]],
    phrase [["go", "cargo", "dotnet"], ["test"]],
    followed ["mvn"] ["test", "verify"],
    followed ["gradle", "gradlew"] ["test", "check"],
    phrase [["make"], ["test", "check"]],
    phrase [["rspec", "phpunit", "jest", "mocha", "vitest", "ctest"]]]

/-- Ways to tell a build tool to leave the tests out. -/
def testSkip : Pattern := anyOf
  [literal "skipTests",
    phrase [["test.skip"]],
    sequence
      [.alt .start (.one Text.isBlank), literal "-x", blanks, literal "test", .edge]]

end Pattern

namespace Instruction

/-- Whether a step runs a package manager. -/
def installsPackages (i : Instruction) : Bool :=
  i.opcode = .run && Pattern.packageInstall.occursIn i.command

/-- Whether a step installs the dependencies of a project. -/
def installsDependencies (i : Instruction) : Bool :=
  i.opcode = .run && Pattern.dependencyInstall.occursIn i.command

/-- Whether one part of a command runs tests; installing a test runner does not count. -/
def isTestRun (segment : Text) : Bool :=
  !Pattern.packageInstall.occursIn segment && !Pattern.testSkip.occursIn segment &&
    Pattern.testRunner.occursIn segment

/-- Whether a step runs tests. -/
def runsTests (i : Instruction) : Bool := i.opcode = .run && i.segments.any isTestRun

end Instruction

end Drydock
