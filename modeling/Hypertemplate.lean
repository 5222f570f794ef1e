import Hypertemplate.Main
import Hypertemplate.Proofs.Binding.Diagnostics
import Hypertemplate.Proofs.Binding.Normal
import Hypertemplate.Proofs.Document.Cloning
import Hypertemplate.Proofs.Document.Escaping
import Hypertemplate.Proofs.Document.Freed
import Hypertemplate.Proofs.Document.Inert
import Hypertemplate.Proofs.Document.RootKept
import Hypertemplate.Proofs.Document.Unambiguous
import Hypertemplate.Proofs.Engine.BoundNodes
import Hypertemplate.Proofs.Engine.Counting
import Hypertemplate.Proofs.Engine.Delays
import Hypertemplate.Proofs.Engine.LastWins
import Hypertemplate.Proofs.Engine.Overlap
import Hypertemplate.Proofs.Engine.Protocol
import Hypertemplate.Proofs.Engine.Reached
import Hypertemplate.Proofs.Engine.Registry
import Hypertemplate.Proofs.Engine.Window
import Hypertemplate.Proofs.Fetch.Payloads
import Hypertemplate.Proofs.Fetch.Queues
import Hypertemplate.Proofs.Fetch.Responses
import Hypertemplate.Proofs.Html.Attributes
import Hypertemplate.Proofs.Html.Losses
import Hypertemplate.Proofs.Json.Fields
import Hypertemplate.Proofs.Json.Paths
import Hypertemplate.Proofs.Selector.Queries
import Hypertemplate.Proofs.Selector.Siblings
import Hypertemplate.Proofs.Template.Injection
import Hypertemplate.Proofs.Template.Insertion
import Hypertemplate.Proofs.Template.Leaves
import Hypertemplate.Proofs.Template.Memory
import Hypertemplate.Proofs.Template.Plans
import Hypertemplate.Proofs.Template.Substitution
import Hypertemplate.Proofs.Template.Tokens
import Hypertemplate.Proofs.Template.Updates
