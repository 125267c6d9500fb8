import PackedJson.Bisect
import PackedJson.Checksum
import PackedJson.Json.Compact
import PackedJson.Json.Pointer
import PackedJson.Json.Reader
import PackedJson.LittleEndian
import PackedJson.Sorted
import PackedJson.Text.Quoted
import PackedJson.Target
import PackedJson.Arena.Error
import PackedJson.Arena.Basic
import PackedJson.Schema.Type
import PackedJson.Schema.View
import PackedJson.Schema.Builder
import PackedJson.Schema.Layout
import PackedJson.Container.Basic
import PackedJson.Packing.Error
import PackedJson.Instance.Error
import PackedJson.Instance.Tree
import PackedJson.Packing.Write
import PackedJson.Packing.Document
import PackedJson.TextSchema.Compile
import PackedJson.TextSchema.Companion
import PackedJson.TextSchema.Infer
import PackedJson.Proofs.Arena.Flattening
import PackedJson.Proofs.Companion.Assertions
import PackedJson.Proofs.Companion.Relocation
import PackedJson.Proofs.Container.RoundTrip
import PackedJson.Proofs.Packing.Destinations
import PackedJson.Proofs.Packing.Documents
import PackedJson.Proofs.Packing.Captures
import PackedJson.Proofs.Packing.Indifference
import PackedJson.Proofs.Packing.Layouts
import PackedJson.Proofs.Packing.Lookup
import PackedJson.Proofs.Packing.Nesting
import PackedJson.Proofs.Packing.Paths
import PackedJson.Proofs.Packing.Samples
import PackedJson.Proofs.Schema.Session
import PackedJson.Proofs.Schema.Encoding
import PackedJson.Proofs.TextSchema.Locating
import PackedJson.Proofs.TextSchema.Soundness
import PackedJson.Proofs.TextSchema.Genericity
import PackedJson.Proofs.TextSchema.Stability
import PackedJson.Proofs.TextSchema.Failures
import PackedJson.Proofs.TextSchema.Inferring
import PackedJson.Proofs.TextSchema.Parallel
