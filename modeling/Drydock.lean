import Drydock.Main
import Drydock.Proofs.Dockerfile.Splitting
import Drydock.Proofs.Dockerfile.Body
import Drydock.Proofs.Dockerfile.Printing
import Drydock.Proofs.Engine.Pool
import Drydock.Proofs.Engine.Findings
import Drydock.Proofs.Engine.Deadline
import Drydock.Proofs.Engine.Aggregation
import Drydock.Proofs.Dockerfile.Lineage
import Drydock.Proofs.Dockerfile.Substitution
import Drydock.Proofs.Dockerfile.Image
import Drydock.Proofs.Dockerfile.Division
import Drydock.Proofs.Dockerfile.Pursuit
import Drydock.Proofs.Rule.BaseImage
import Drydock.Proofs.Rule.Renumbering
import Drydock.Proofs.Engine.Faultless
import Drydock.Proofs.Engine.Override
import Drydock.Proofs.Rule.Extension
import Drydock.Proofs.Rule.ExecForm
import Drydock.Proofs.Cli.Input
import Drydock.Proofs.Cli.Output
import Drydock.Proofs.Config.Validity
import Drydock.Proofs.Config.Rejection
import Drydock.Proofs.Cli.Refusal
import Drydock.Proofs.Cli.Trace
import Drydock.Proofs.Report.Listing
import Drydock.Proofs.Config.Agreement
import Drydock.Proofs.Engine.Isolation
import Drydock.Proofs.Engine.Session
import Drydock.Proofs.Dockerfile.ArrayForm
import Drydock.Proofs.Dockerfile.Comment
import Drydock.Proofs.Dockerfile.LineEnd
import Drydock.Proofs.Rule.Tag
import Drydock.Proofs.Rule.User
import Drydock.Proofs.Rule.Denylist
import Drydock.Proofs.Rule.Secrets
import Drydock.Proofs.Rule.Artifacts
import Drydock.Proofs.Rule.Precedence
import Drydock.Proofs.Rule.LayerOrder
import Drydock.Proofs.Rule.InstallRow
import Drydock.Proofs.Rule.TestStep
import Drydock.Proofs.Shell.Chaining
import Drydock.Proofs.Rule.Order
import Drydock.Proofs.Dockerfile.Quoting
import Drydock.Proofs.Shell.Download
