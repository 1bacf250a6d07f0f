import Scaffold.Failure.Graph
import Scaffold.Generator.Basic
import Scaffold.Proofs.Acceptance
import Scaffold.Proofs.Causes
import Scaffold.Proofs.Codes
import Scaffold.Proofs.Completeness
import Scaffold.Proofs.Context
import Scaffold.Proofs.Descriptions
import Scaffold.Proofs.EscapeValue
import Scaffold.Proofs.Handlers
import Scaffold.Proofs.LastLoad
import Scaffold.Proofs.Leftmost
import Scaffold.Proofs.OutputDir
import Scaffold.Proofs.Plurals
import Scaffold.Proofs.Preorder
import Scaffold.Proofs.Rendering
import Scaffold.Proofs.Rereading
import Scaffold.Proofs.Structured
import Scaffold.Proofs.Transparency
