import ExampleTests.FileTree
import ExampleTests.Main
import ExampleTests.Proofs.CommandLine.Generation
import ExampleTests.Proofs.Document.Recovery
import ExampleTests.Proofs.Json.RoundTrip
import ExampleTests.Proofs.CommandLine.Agreement
import ExampleTests.Proofs.Document.Quoting
import ExampleTests.Proofs.Document.ReadBack
import ExampleTests.Proofs.Json.Scalar
import ExampleTests.Proofs.Json.Ignored
import ExampleTests.Proofs.Json.Meaning
import ExampleTests.Proofs.Json.Fields
import ExampleTests.Proofs.Json.Mapping
import ExampleTests.Proofs.Json.Integer
import ExampleTests.Proofs.Document.Indentation
import ExampleTests.Proofs.Document.Lines
import ExampleTests.Proofs.Call
import ExampleTests.Proofs.Generate
import ExampleTests.Proofs.Equality
import ExampleTests.Proofs.Json.Float
import ExampleTests.Proofs.Loading
import ExampleTests.Proofs.Rendering
import ExampleTests.Proofs.Expression
import ExampleTests.Proofs.Json.Accepted
import ExampleTests.Proofs.Json.Keyed
import ExampleTests.Proofs.Validity
import ExampleTests.Proofs.IntegerLiteral
