import ConfTree.Main
import ConfTree.Proofs.Path.Composition
import ConfTree.Proofs.Table.Spelling
import ConfTree.Proofs.Value.RoundTrip
import ConfTree.Strategy.Json
import ConfTree.Table.Cursor
import ConfTree.Value.Edit
import ConfTree.Value.Equality
import ConfTree.Proofs.Manifest.Field
import ConfTree.Proofs.Manifest.Grammar
import ConfTree.Proofs.Manifest.RoundTrip
import ConfTree.Proofs.Json.Shape
import ConfTree.Proofs.Path.Segments
import ConfTree.Proofs.Value.Null
import ConfTree.Proofs.Json.Locality
import ConfTree.Proofs.Json.ObjectText
import ConfTree.Proofs.Table.Pairs
import ConfTree.Proofs.Value.Members
import ConfTree.Proofs.Path.Index
import ConfTree.Proofs.Path.Agreement
import ConfTree.Proofs.Path.Address
import ConfTree.Proofs.Value.Boxes
import ConfTree.Proofs.Value.Refiling
import ConfTree.Proofs.Command.Pipeline
import ConfTree.Proofs.Manifest.Sequence
import ConfTree.Proofs.Table.Equality
import ConfTree.Proofs.Value.Congruence
import ConfTree.Proofs.Value.Kinds
import ConfTree.Proofs.Value.Layouts
import ConfTree.Proofs.Command.Delivery
import ConfTree.Proofs.Table.Enumeration
import ConfTree.Proofs.Table.Insertion
import ConfTree.Proofs.Table.Extensionality
import ConfTree.Proofs.Table.Position
import ConfTree.Proofs.Table.SamePosition
import ConfTree.Proofs.Table.Gathering
import ConfTree.Proofs.Manifest.References
import ConfTree.Proofs.Value.Conversion
import ConfTree.Proofs.Value.Writing
import ConfTree.Proofs.Dump.Faithfulness
import ConfTree.Proofs.Value.Numbers
