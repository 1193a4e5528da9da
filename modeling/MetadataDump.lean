import MetadataDump.Main
import MetadataDump.Files.Tree
import MetadataDump.Proofs.Assembly.Memo
import MetadataDump.Proofs.Assembly.References
import MetadataDump.Proofs.Assembly.Schedule
import MetadataDump.Proofs.Assembly.Failure
import MetadataDump.Proofs.Declaration.Assembled
import MetadataDump.Proofs.Json.Same
import MetadataDump.Proofs.Dump.Equivalence
import MetadataDump.Proofs.Bytes.Accepts
import MetadataDump.Proofs.Bytes.Numbers
import MetadataDump.Proofs.Bytes.Compressed
import MetadataDump.Proofs.Attribute.Forms
import MetadataDump.Proofs.Attribute.Values
import MetadataDump.Proofs.Attribute.Records
import MetadataDump.Proofs.Attribute.Decode
import MetadataDump.Proofs.Attribute.Grammar
import MetadataDump.Proofs.Bytes.Truncation
import MetadataDump.Proofs.Bytes.Outcomes
import MetadataDump.Proofs.Bytes.Calls
import MetadataDump.Proofs.Attribute.Truncation
import MetadataDump.Proofs.Attribute.Size
import MetadataDump.Proofs.Attribute.Cursors
import MetadataDump.Proofs.Attribute.Overrun
import MetadataDump.Proofs.Attribute.Shapes
import MetadataDump.Proofs.Attribute.Items
import MetadataDump.Proofs.Attribute.Diagnostics
import MetadataDump.Proofs.Attribute.Failures
import MetadataDump.Proofs.Assembly.Answers
import MetadataDump.Proofs.Declaration.Rows
import MetadataDump.Proofs.Declaration.Faithful
import MetadataDump.Proofs.Declaration.Accessors
import MetadataDump.Proofs.Declaration.Offsets
import MetadataDump.Proofs.Snapshot.Positions
import MetadataDump.Proofs.Snapshot.Windows
import MetadataDump.Proofs.Snapshot.Addresses
import MetadataDump.Proofs.Text.Hex
import MetadataDump.Proofs.Text.Separation
import MetadataDump.Proofs.Text.Literals
import MetadataDump.Proofs.Declaration.Specializations
import MetadataDump.Proofs.Declaration.Defaults
import MetadataDump.Proofs.Attribute.Members
import MetadataDump.Proofs.Assembly.Comparison
import MetadataDump.Proofs.Declaration.AttributeData
import MetadataDump.Proofs.Declaration.Sections
import MetadataDump.Proofs.Declaration.Isolation
import MetadataDump.Proofs.Dump.Parts
import MetadataDump.Proofs.Attribute.Prefix
import MetadataDump.Proofs.Json.Numerals
import MetadataDump.Proofs.Json.Tokens
import MetadataDump.Proofs.Json.RoundTrip
import MetadataDump.Proofs.Json.Codecs
import MetadataDump.Proofs.Snapshot.Exchange
import MetadataDump.Proofs.Files.Tree
import MetadataDump.Proofs.Dump.Artifacts
import MetadataDump.Proofs.Dump.Counts
import MetadataDump.Proofs.Dump.Listing
import MetadataDump.Proofs.Dump.Code
import MetadataDump.Proofs.Command.Switches
import MetadataDump.Proofs.Command.Verdict
import MetadataDump.Proofs.Dump.Lines
