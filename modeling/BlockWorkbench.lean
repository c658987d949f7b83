import BlockWorkbench.Main
import BlockWorkbench.Order.Check
import BlockWorkbench.Owner
import BlockWorkbench.Proofs.Atomicity
import BlockWorkbench.Proofs.Json.Characters
import BlockWorkbench.Proofs.Log
import BlockWorkbench.Proofs.Renaming
import BlockWorkbench.Proofs.Representation
import BlockWorkbench.Proofs.Streaming.Announcing
import BlockWorkbench.Proofs.Streaming.Delivery
import BlockWorkbench.Proofs.Streaming.Framing
import BlockWorkbench.Proofs.Worker.Building
import BlockWorkbench.Proofs.Worker.Calling
import BlockWorkbench.Proofs.OrderOutcome
import BlockWorkbench.Proofs.Script.RegisteredNames
import BlockWorkbench.Proofs.Worker.Renaming
import BlockWorkbench.Proofs.Worker.Showing
import BlockWorkbench.Proofs.Document
import BlockWorkbench.Proofs.Server.BlockData
import BlockWorkbench.Proofs.Server.Delivery
import BlockWorkbench.Proofs.FreshIds
import BlockWorkbench.Proofs.Saving
import BlockWorkbench.Proofs.Serving
import BlockWorkbench.Proofs.Streaming.Sessions
import BlockWorkbench.Proofs.Dependents
import BlockWorkbench.Proofs.Loading
import BlockWorkbench.Proofs.Updating
import BlockWorkbench.Proofs.Lifecycle
import BlockWorkbench.Proofs.Complaints
import BlockWorkbench.Proofs.RegistryHistory
import BlockWorkbench.Proofs.RenamingBack
import BlockWorkbench.Proofs.RepeatableOrder
import BlockWorkbench.Proofs.HandlerLines
import BlockWorkbench.Proofs.NewModules
import BlockWorkbench.Proofs.Searching
import BlockWorkbench.Proofs.Worker.Notes
