import SelfHealing.Anomaly.Encoding
import SelfHealing.Configuration.Reader
import SelfHealing.Json.Reader
import SelfHealing.Json.Writer
import SelfHealing.Main
import SelfHealing.Query.Encoding
import SelfHealing.Recovery.Encoding
import SelfHealing.Simulation.ApiServer
import SelfHealing.Proofs.Observation
import SelfHealing.Proofs.Outside
import SelfHealing.Proofs.Recovery.Remedy
import SelfHealing.Proofs.Recovery.Order
import SelfHealing.Proofs.Recovery.Placement
import SelfHealing.Proofs.Recovery.Success
import SelfHealing.Proofs.Recovery.Failure
import SelfHealing.Proofs.Ssh.Talk
import SelfHealing.Proofs.Watch.Deletion
import SelfHealing.Proofs.Watch.Opening
import SelfHealing.Proofs.Ssh.Plan
import SelfHealing.Proofs.Ssh.Limit
import SelfHealing.Proofs.Ssh.Protocol
import SelfHealing.Proofs.Ssh.Status
import SelfHealing.Proofs.Ssh.Output
import SelfHealing.Proofs.Shell.Document
import SelfHealing.Proofs.Shell.Words
import SelfHealing.Proofs.Command.Privilege
import SelfHealing.Proofs.Command.Calls
import SelfHealing.Proofs.Command.Transcript
import SelfHealing.Proofs.Command.Child
import SelfHealing.Proofs.Command.Agreement
import SelfHealing.Proofs.Command.Joining
import SelfHealing.Proofs.Command.Interleaving
import SelfHealing.Proofs.Ssh.Deadline
import SelfHealing.Proofs.Secrecy.Pass
import SelfHealing.Proofs.Cause
import SelfHealing.Proofs.Plainness
import SelfHealing.Proofs.Recovery.Results
import SelfHealing.Proofs.Lookup
import SelfHealing.Proofs.Command.Sequence
import SelfHealing.Proofs.Recovery.Mutation
import SelfHealing.Proofs.Cluster.Store
import SelfHealing.Proofs.Recovery.Restart
import SelfHealing.Proofs.Time.Timestamp
import SelfHealing.Proofs.Registry.Resolution
import SelfHealing.Proofs.Registry.Port
import SelfHealing.Proofs.Registry.Environment
import SelfHealing.Proofs.Anomaly.Classification
import SelfHealing.Proofs.Data.Restatement
import SelfHealing.Proofs.Encoding.Restatement
import SelfHealing.Proofs.Net.Address
import SelfHealing.Proofs.Data.Writing
import SelfHealing.Proofs.Encoding.RoundTrip
import SelfHealing.Proofs.Text.Blank
import SelfHealing.Proofs.Text.Utf8
import SelfHealing.Proofs.Command.Lines
import SelfHealing.Proofs.Net.Interface
import SelfHealing.Proofs.Net.Notation
import SelfHealing.Proofs.Cluster.Location
import SelfHealing.Proofs.Shell.Unquoted
import SelfHealing.Proofs.Recovery.Lifecycle
import SelfHealing.Proofs.Recovery.Abort
import SelfHealing.Proofs.Ssh.Patience
import SelfHealing.Proofs.Program.Timeouts
