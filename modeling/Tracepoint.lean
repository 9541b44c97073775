import Tracepoint.Main
import Tracepoint.Proofs.Code.Edits
import Tracepoint.Proofs.Probe.Weaving
import Tracepoint.Proofs.Probe.Sweep
import Tracepoint.Proofs.Probe.Rewriting
import Tracepoint.Proofs.Probe.Injection
import Tracepoint.Proofs.Probe.Positions
import Tracepoint.Proofs.Code.Validity
import Tracepoint.Proofs.Code.Judgement
import Tracepoint.Proofs.Probe.Verdict
import Tracepoint.Proofs.Probe.Collision
import Tracepoint.Proofs.Code.Flow
import Tracepoint.Proofs.Probe.Flow
import Tracepoint.Proofs.Probe.Report
import Tracepoint.Proofs.Probe.Records
import Tracepoint.Proofs.Json.Text
import Tracepoint.Proofs.Json.Reading
import Tracepoint.Proofs.Code.Documents
import Tracepoint.Proofs.Code.Resumption
import Tracepoint.Proofs.Code.Addressing
import Tracepoint.Proofs.Code.Exhaustion
import Tracepoint.Proofs.Code.Admission
import Tracepoint.Proofs.Probe.Insertions
import Tracepoint.Proofs.Files.Places
import Tracepoint.Proofs.Files.Edits
import Tracepoint.Proofs.Files.Actions
import Tracepoint.Proofs.Run.Placing
import Tracepoint.Proofs.Run.Sparing
import Tracepoint.Proofs.Run.Failure
import Tracepoint.Proofs.Json.Layout
import Tracepoint.Proofs.Manifest
import Tracepoint.Proofs.Probe.Faults
import Tracepoint.Proofs.Registry
import Tracepoint.Proofs.Run.Calls
import Tracepoint.Proofs.Run.Charges
import Tracepoint.Proofs.Run.Keeping
import Tracepoint.Proofs.Run.Publication
import Tracepoint.Proofs.Run.Support
import Tracepoint.Proofs.Code.Confinement
import Tracepoint.Proofs.Probe.Anonymity
import Tracepoint.Proofs.Probe.Success
import Tracepoint.Proofs.Probe.Stopping
import Tracepoint.Proofs.Probe.Independence
import Tracepoint.Proofs.Probe.Identifiers
import Tracepoint.Proofs.Descriptor.Comments
import Tracepoint.Proofs.Descriptor.Declarations
import Tracepoint.Proofs.Probe.Attribution
import Tracepoint.Proofs.Descriptor.Insertion
import Tracepoint.Proofs.Descriptor.Ensuring
import Tracepoint.Proofs.Descriptor.Elements
import Tracepoint.Proofs.Descriptor.Attributes
import Tracepoint.Proofs.Descriptor.Rewording
import Tracepoint.Proofs.Descriptor.Rounds
import Tracepoint.Proofs.Scope
import Tracepoint.Proofs.Json.Fields
import Tracepoint.Proofs.Code.Forms
import Tracepoint.Proofs.Registry.History
import Tracepoint.Proofs.Registry.Overloads
import Tracepoint.Proofs.Tools.Template
import Tracepoint.Proofs.Text.Order
import Tracepoint.Proofs.Files.Receiving
import Tracepoint.Proofs.Files.Listing
import Tracepoint.Proofs.Code.Writing
import Tracepoint.Proofs.Code.Rereading
import Tracepoint.Proofs.Code.Signatures
import Tracepoint.Proofs.Files.Parts
import Tracepoint.Proofs.Archive
import Tracepoint.Proofs.Archive.Signing
import Tracepoint.Proofs.Archive.Selection
