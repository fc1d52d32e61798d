/-
  A configuration file to start from.
-/
import Drydock.Text.Basic

namespace Drydock.Config

/-- The lines of a configuration file to start from. -/
def templateLines : List Text :=
  ["format = \"text\"",
    "strict = false",
    "documentation_threshold = 0.5",
    "# deadline_seconds = 5.0",
    "# workers = 4",
    "denylist_base_images = [",
    "  \"ubuntu\",",
    "  \"debian\",",
    "  \"python\",",
    "  \"node\",",
    "]",
    "",
    "[rules]",
    "enable = [",
    "  \"minimal-base-image\",",
    "  \"explicit-tag\",",
    "  \"layer-caching-order\",",
    "  \"consolidate-run\",",
    "  \"cleanup-artifacts\",",
    "  \"specific-copy\",",
    "  \"non-root-user\",",
    "  \"env-no-secrets\",",
    "  \"documented\",",
    "  \"dockerignore-present\",",
    "  \"has-test-step\",",
    "]",
    "disable = []",
    "",
    "[rules.severity]",
    "# documented = \"warning\"",
    ""]

/-- A configuration file to start from. -/
def template : Text := Text.joinWith ['\n'] templateLines

end Drydock.Config
