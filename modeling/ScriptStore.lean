import ScriptStore.Binary64
import ScriptStore.Binary64.Scaling
import ScriptStore.Binary64.Shortest
import ScriptStore.Body.Basic
import ScriptStore.Body.Fault
import ScriptStore.Body.Reader
import ScriptStore.Body.Validation
import ScriptStore.Cli.Command
import ScriptStore.Cli.Complaint
import ScriptStore.Cli.Finding
import ScriptStore.Cli.Host
import ScriptStore.Cli.Program
import ScriptStore.Cli.Run
import ScriptStore.Coercion
import ScriptStore.Consistency
import ScriptStore.Decimal
import ScriptStore.Document.Decode
import ScriptStore.Document.Encode
import ScriptStore.EntityDiff
import ScriptStore.EntityState
import ScriptStore.Entries
import ScriptStore.Execution
import ScriptStore.FieldPath
import ScriptStore.Json.Basic
import ScriptStore.Json.Number
import ScriptStore.Json.Reader
import ScriptStore.Json.Token
import ScriptStore.Json.Writer
import ScriptStore.Main
import ScriptStore.Member
import ScriptStore.Names
import ScriptStore.OrderedMap
import ScriptStore.Pass
import ScriptStore.Proofs.Alignment
import ScriptStore.Proofs.Body.Offenders
import ScriptStore.Proofs.Body.Validity
import ScriptStore.Proofs.Cli.Atomicity
import ScriptStore.Proofs.Cli.ClearedStores
import ScriptStore.Proofs.Cli.Outcomes
import ScriptStore.Proofs.Cli.Previews
import ScriptStore.Proofs.Cli.SavedStores
import ScriptStore.Proofs.Cli.ValidStores
import ScriptStore.Proofs.Coercion
import ScriptStore.Proofs.Consistency
import ScriptStore.Proofs.Consistency.Damage
import ScriptStore.Proofs.Document.Bodies
import ScriptStore.Proofs.Document.Faults
import ScriptStore.Proofs.Document.Grammar
import ScriptStore.Proofs.Document.Origins
import ScriptStore.Proofs.Document.RoundTrip
import ScriptStore.Proofs.Document.Values
import ScriptStore.Proofs.Fallible
import ScriptStore.Proofs.Json.Lexing
import ScriptStore.Proofs.Json.Limits
import ScriptStore.Proofs.Json.Parsing
import ScriptStore.Proofs.Names
import ScriptStore.Proofs.Names.Histories
import ScriptStore.Proofs.OrderedMap
import ScriptStore.Proofs.Pass.Batch
import ScriptStore.Proofs.Pass.Binding
import ScriptStore.Proofs.Pass.Blanking
import ScriptStore.Proofs.Pass.Changes
import ScriptStore.Proofs.Pass.Classification
import ScriptStore.Proofs.Pass.Clearing
import ScriptStore.Proofs.Pass.Frame
import ScriptStore.Proofs.Pass.Idempotence
import ScriptStore.Proofs.Pass.Order
import ScriptStore.Proofs.Pass.Preservation
import ScriptStore.Proofs.Pass.Rebuild
import ScriptStore.Proofs.Pass.Regrouping
import ScriptStore.Proofs.Pass.RoundTrip
import ScriptStore.Proofs.Pass.Staleness
import ScriptStore.Proofs.Pass.Tables
import ScriptStore.Proofs.Record
import ScriptStore.Proofs.Record.Edits
import ScriptStore.Proofs.Schema.Keywords
import ScriptStore.Proofs.Store.Bootstrapping
import ScriptStore.Proofs.Store.CleanStores
import ScriptStore.Proofs.Store.EmptyNames
import ScriptStore.Proofs.Store.ExecutionData
import ScriptStore.Proofs.Store.Failures
import ScriptStore.Proofs.Store.Independence
import ScriptStore.Proofs.Store.Lifetimes
import ScriptStore.Proofs.Store.Passes
import ScriptStore.Proofs.Store.Runs
import ScriptStore.Proofs.Store.Sessions
import ScriptStore.Proofs.Store.Values
import ScriptStore.Proofs.Store.Verification
import ScriptStore.Record
import ScriptStore.Rounding
import ScriptStore.Schema.Basic
import ScriptStore.Schema.StoreDocument
import ScriptStore.Store.Basic
import ScriptStore.Store.Operation
import ScriptStore.Store.Session
import ScriptStore.SyncError
