import ContractInterface.Main
import ContractInterface.TypeDesc.Draft
import ContractInterface.Proofs.Layout.Leaves
import ContractInterface.Proofs.Header.Member
import ContractInterface.Proofs.Resolution.Invariant
import ContractInterface.Proofs.Resolution.Preservation
import ContractInterface.Proofs.Header.Registration
import ContractInterface.Proofs.TypeDesc.Json
import ContractInterface.Proofs.Document.Agreement
import ContractInterface.Proofs.Resolution.Depth
import ContractInterface.Proofs.Header.Statement
import ContractInterface.Proofs.Text.Word
import ContractInterface.Proofs.Expr.Token
import ContractInterface.Proofs.Expr.Length
import ContractInterface.Proofs.Header.Declaration
import ContractInterface.Proofs.Header.DataMember
import ContractInterface.Proofs.Resolution.Declaration
import ContractInterface.Proofs.Header.StructDef
import ContractInterface.Proofs.Header.Canonical
import ContractInterface.Proofs.Resolution.Recovery
import ContractInterface.Proofs.Header.Extent
import ContractInterface.Proofs.Resolution.Correspondence
import ContractInterface.Proofs.Resolution.Frame
import ContractInterface.Proofs.Resolution.Termination
import ContractInterface.Proofs.Resolution.Plain
import ContractInterface.Proofs.Resolution.Faithful
import ContractInterface.Proofs.Resolution.Transparency
import ContractInterface.Proofs.TypeDesc.Acceptance
import ContractInterface.Proofs.Document.Validity
import ContractInterface.Proofs.Header.Comment
import ContractInterface.Proofs.TypeDesc.RoundTrip
import ContractInterface.Proofs.Resolution.Reliable
import ContractInterface.Proofs.Document.Entry
import ContractInterface.Proofs.Document.Order
import ContractInterface.Proofs.Document.Sides
import ContractInterface.Proofs.Json.Token
import ContractInterface.Proofs.Json.RoundTrip
import ContractInterface.Proofs.Document.Lossless
import ContractInterface.Proofs.Document.TypeProperty
import ContractInterface.Proofs.Document.Placeholder
import ContractInterface.Proofs.Document.WellFormed
import ContractInterface.Proofs.Text.Scan
import ContractInterface.Proofs.Header.Occurrence
import ContractInterface.Proofs.Document.Listing
import ContractInterface.Proofs.FileTree.Change
import ContractInterface.Proofs.Resolution.Interruption
import ContractInterface.Proofs.Program.Compile
import ContractInterface.Proofs.FileName
import ContractInterface.Proofs.Registry.Documents
import ContractInterface.Proofs.Registry.Failure
import ContractInterface.Proofs.Registry.SingleFile
import ContractInterface.Proofs.FileTree.Listing
import ContractInterface.Proofs.Expr.Grammar
import ContractInterface.Proofs.Expr.Conversion
import ContractInterface.Proofs.Expr.Spelling
import ContractInterface.Proofs.Program.Check
import ContractInterface.Proofs.Registry.Again
import ContractInterface.Proofs.Expr.Constant
import ContractInterface.Proofs.Layout.Stride
import ContractInterface.Proofs.Layout.Tightness
import ContractInterface.Proofs.Stanza
import ContractInterface.Proofs.Stanza.Meaning
import ContractInterface.Proofs.Header.Brace
import ContractInterface.Proofs.Header.Location
import ContractInterface.Proofs.Header.Boundary
import ContractInterface.Proofs.Header.SetAside
import ContractInterface.Proofs.Resolution.Insertion
import ContractInterface.Proofs.Header.ArrayTemplate
import ContractInterface.Proofs.Resolution.ArrayType
import ContractInterface.Proofs.Header.Heading
import ContractInterface.Proofs.Resolution.AliasChain
import ContractInterface.Proofs.Document.Unknown
import ContractInterface.Proofs.Layout.Refusal
import ContractInterface.Proofs.PublicKey
import ContractInterface.Proofs.Registry.ContractKey
import ContractInterface.Proofs.Expr.Literal
import ContractInterface.Proofs.Header.Conservation
import ContractInterface.Proofs.Header.Stripped
import ContractInterface.Proofs.Text.Pattern
import ContractInterface.Proofs.Header.Convention
