import BucketAdmin.Decimal.Shortest
import BucketAdmin.Text.Blank
import BucketAdmin.Text.Duration
import BucketAdmin.Text.Numeral
import BucketAdmin.Text.Utf8
import BucketAdmin.Json.Literal
import BucketAdmin.Json.Value
import BucketAdmin.Json.Fault
import BucketAdmin.Json.Reader
import BucketAdmin.Json.Record
import BucketAdmin.Json.Writer
import BucketAdmin.Bucket.Document
import BucketAdmin.Cluster.Info
import BucketAdmin.Refusal
import BucketAdmin.Api.Body
import BucketAdmin.Api.Endpoint
import BucketAdmin.Api.Request
import BucketAdmin.Api.Response
import BucketAdmin.Registry.Buckets
import BucketAdmin.Server.Dispatch
import BucketAdmin.Client.Call
import BucketAdmin.Client.Config
import BucketAdmin.Client.Manager
import BucketAdmin.Client.Transport
import BucketAdmin.Client.Web
import BucketAdmin.Proofs.Except
import BucketAdmin.Proofs.Numeral
import BucketAdmin.Proofs.Json.Literal
import BucketAdmin.Proofs.Json.Parse
import BucketAdmin.Proofs.Json.Grammar
import BucketAdmin.Proofs.Json.Spelling
import BucketAdmin.Proofs.Json.Lexing
import BucketAdmin.Proofs.Json.Derivation
import BucketAdmin.Proofs.Json.Record
import BucketAdmin.Proofs.Json.Members
import BucketAdmin.Proofs.Documents
import BucketAdmin.Proofs.DocumentMembers
import BucketAdmin.Proofs.RoundTrip
import BucketAdmin.Proofs.Registry.Contents
import BucketAdmin.Proofs.Registry.Operations
import BucketAdmin.Proofs.Server.Invariant
import BucketAdmin.Proofs.Server.Frame
import BucketAdmin.Proofs.Server.Lifetime
import BucketAdmin.Proofs.Client.Catalogue
import BucketAdmin.Proofs.Client.Refinement
import BucketAdmin.Proofs.Client.Traffic
import BucketAdmin.Proofs.Registry.Admission
import BucketAdmin.Proofs.Client.Race
import BucketAdmin.Proofs.Api.Size
import BucketAdmin.Proofs.Api.Route
import BucketAdmin.Proofs.Api.Spellings
import BucketAdmin.Proofs.Http.Uri
import BucketAdmin.Proofs.Client.Classification
import BucketAdmin.Proofs.Client.Readable
import BucketAdmin.Proofs.Client.Rejections
import BucketAdmin.Proofs.Client.Reach
import BucketAdmin.Proofs.Client.Deadlines
import BucketAdmin.Proofs.Client.Web
import BucketAdmin.Proofs.Api.Listing
import BucketAdmin.Proofs.Server.Listing
import BucketAdmin.Proofs.Client.Completion
import BucketAdmin.Proofs.Server.Snapshot
import BucketAdmin.Proofs.Registry.Undo
import BucketAdmin.Proofs.Server.Commutation
import BucketAdmin.Proofs.Cluster.Version
import BucketAdmin.Proofs.Registry.Bounds
