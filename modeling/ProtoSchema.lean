import ProtoSchema.Catalog.Hdlctrl
import ProtoSchema.Catalog.Kitchen
import ProtoSchema.Catalog.Probe
import ProtoSchema.CommandLine
import ProtoSchema.Main
import ProtoSchema.Proofs.Base64.RoundTrip
import ProtoSchema.Proofs.Catalog.Compiled
import ProtoSchema.Proofs.Catalog.Hdlctrl
import ProtoSchema.Proofs.Instant.Calendar
import ProtoSchema.Proofs.Instant.RoundTrip
import ProtoSchema.Proofs.Json.Numeral
import ProtoSchema.Proofs.Json.RoundTrip
import ProtoSchema.Proofs.Plan.Boxing
import ProtoSchema.Proofs.Schema.Acceptance
import ProtoSchema.Proofs.Schema.Grammar
import ProtoSchema.Proofs.Schema.Malformed
import ProtoSchema.Proofs.Schema.Position
import ProtoSchema.Proofs.Schema.Reader
import ProtoSchema.Proofs.Schema.Recovery
import ProtoSchema.Proofs.Schema.Spelling
import ProtoSchema.Proofs.Schema.Word
import ProtoSchema.Proofs.Text.Digits
import ProtoSchema.Proofs.Token.Layout
import ProtoSchema.Proofs.Token.Lexeme
import ProtoSchema.Proofs.TypeRef.Lookup
import ProtoSchema.Proofs.TypeRef.Resolve
import ProtoSchema.Proofs.Value.Leaf
import ProtoSchema.Proofs.Value.Record
import ProtoSchema.Proofs.Value.RoundTrip
import ProtoSchema.Proofs.Value.Typing
import ProtoSchema.Value.Steps
import ProtoSchema.Proofs.TypeRef.Soundness
import ProtoSchema.Proofs.TypeRef.Choice
import ProtoSchema.Proofs.Naming.JsonName
import ProtoSchema.Proofs.Plan.Keys
import ProtoSchema.Proofs.Schema.Concatenation
import ProtoSchema.Proofs.Schema.Truncation
import ProtoSchema.Proofs.Schema.WellFormed
import ProtoSchema.Proofs.Run.Frame
import ProtoSchema.Proofs.TypeRef.Removal
import ProtoSchema.Proofs.Plan.Places
import ProtoSchema.Proofs.Plan.SelfContained
import ProtoSchema.Proofs.Schema.Names
import ProtoSchema.Proofs.Naming.Identifiers
import ProtoSchema.Proofs.Plan.Paths
import ProtoSchema.Proofs.Run.Links
import ProtoSchema.Proofs.Value.Entries
import ProtoSchema.Proofs.Value.Forms
import ProtoSchema.Proofs.Value.Rephrasing
import ProtoSchema.Proofs.Catalog.Host
import ProtoSchema.Proofs.Naming.Clashes
import ProtoSchema.Proofs.Plan.Apart
import ProtoSchema.Proofs.Schema.Unplaced
import ProtoSchema.Proofs.Token.Longest
import ProtoSchema.Proofs.Token.Splitting
import ProtoSchema.Proofs.Instant.Accepted
import ProtoSchema.Proofs.Value.Exactness
import ProtoSchema.Proofs.Base64.Spellings
import ProtoSchema.Proofs.Instant.Numerals
import ProtoSchema.Proofs.Instant.Offsets
import ProtoSchema.Proofs.Value.Oneofs
import ProtoSchema.Proofs.Plan.EnumTables
import ProtoSchema.Proofs.Value.Enums
import ProtoSchema.Proofs.Plan.Failure
import ProtoSchema.Proofs.TypeRef.Services
import ProtoSchema.Proofs.Schema.Shape
import ProtoSchema.Proofs.Token.Joining
import ProtoSchema.Proofs.Schema.Literals
import ProtoSchema.Proofs.Naming.Legal
import ProtoSchema.Proofs.Schema.Halting
import ProtoSchema.Proofs.Plan.FreshNames
import ProtoSchema.Proofs.Naming.Letters
