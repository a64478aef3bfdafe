import DocWire.Cli.Run
import DocWire.Client.Run
import DocWire.Document.Shape.Reader
import DocWire.Log.Files
import DocWire.Transport.Scripted
import DocWire.Value.Bson
import DocWire.Main
import DocWire.Proofs.Json.Grammar
import DocWire.Proofs.Json.Written
import DocWire.Proofs.Number.Digits
import DocWire.Proofs.Number.Spelling
import DocWire.Proofs.Results
import DocWire.Proofs.Value.Leaves
import DocWire.Proofs.Filter.Tree
import DocWire.Proofs.Filter.Domain
import DocWire.Proofs.Filter.Alike
import DocWire.Proofs.Paths
import DocWire.Proofs.Update.RoundTrip
import DocWire.Proofs.Client.Calls
import DocWire.Proofs.Value.Wire
import DocWire.Proofs.Filter.Payload
import DocWire.Proofs.Client.SchemaGate
import DocWire.Proofs.Client.Refusals
import DocWire.Proofs.Client.Targets
import DocWire.Proofs.Entries
import DocWire.Proofs.Value.Source
import DocWire.Proofs.Filter.Source
import DocWire.Proofs.Client.Sessions
import DocWire.Proofs.Client.Trace
import DocWire.Proofs.Client.WireLog
import DocWire.Proofs.Client.Sending
import DocWire.Proofs.Client.Isolation
import DocWire.Proofs.Document.Merge
import DocWire.Proofs.Value.Equality
import DocWire.Proofs.Filter.Equality
import DocWire.Proofs.Client.Recorded
import DocWire.Proofs.Client.InjectedFailures
import DocWire.Proofs.Client.Settling
import DocWire.Proofs.Client.GeneratedKeys
import DocWire.Proofs.Value.Plain
import DocWire.Proofs.Filter.Depth
import DocWire.Proofs.Filter.Printed
import DocWire.Proofs.Document.Placing
import DocWire.Proofs.Document.Unflattening
import DocWire.Proofs.Document.Locations
import DocWire.Proofs.Document.MergedKeys
import DocWire.Proofs.Document.IndependentKeys
import DocWire.Proofs.Value.Integers
import DocWire.Proofs.Update.Domain
import DocWire.Proofs.Document.Flattening
import DocWire.Proofs.Client.Insertions
import DocWire.Proofs.Client.QueuedReads
import DocWire.Proofs.Projection.Source
import DocWire.Proofs.Client.KeyLookup
import DocWire.Proofs.Value.IntegerRoutes
import DocWire.Proofs.Value.Kept
import DocWire.Proofs.Update.Source
import DocWire.Proofs.MemberOrder
import DocWire.Proofs.Value.Bson
import DocWire.Proofs.Settings.Precedence
import DocWire.Proofs.Settings.Environment
import DocWire.Proofs.Number.WideInteger
import DocWire.Proofs.Value.FieldMaps
import DocWire.Proofs.Document.Schema
