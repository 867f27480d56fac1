import SelectorCatalog.Assoc
import SelectorCatalog.CommandLine.Argument
import SelectorCatalog.CommandLine.Command
import SelectorCatalog.CommandLine.Run
import SelectorCatalog.Compiler.Cache
import SelectorCatalog.Compiler.Compilation
import SelectorCatalog.Compiler.Failure
import SelectorCatalog.Compiler.Input
import SelectorCatalog.Compiler.Output
import SelectorCatalog.Compiler.Process
import SelectorCatalog.Compiler.Recording
import SelectorCatalog.Compiler.Release
import SelectorCatalog.Compiler.Resolver
import SelectorCatalog.Config.Datum
import SelectorCatalog.Config.Document
import SelectorCatalog.Config.Scalar
import SelectorCatalog.Config.Settings
import SelectorCatalog.Config.Token
import SelectorCatalog.Contract.Basic
import SelectorCatalog.Contract.Settings
import SelectorCatalog.Corpus.Load
import SelectorCatalog.Corpus.Malformed
import SelectorCatalog.Corpus.Metadata
import SelectorCatalog.Corpus.Reader
import SelectorCatalog.Corpus.Record
import SelectorCatalog.Database.Basic
import SelectorCatalog.Database.Commit
import SelectorCatalog.Database.Row
import SelectorCatalog.Database.Script
import SelectorCatalog.Digest.Keccak
import SelectorCatalog.Digest.Md5
import SelectorCatalog.Export.Layout
import SelectorCatalog.Export.Write
import SelectorCatalog.FailureKind
import SelectorCatalog.Fault
import SelectorCatalog.Files.Path
import SelectorCatalog.Files.Tree
import SelectorCatalog.Functions.Abi
import SelectorCatalog.Functions.Extraction
import SelectorCatalog.Functions.Record
import SelectorCatalog.Functions.SourceText
import SelectorCatalog.Functions.SyntaxIndex
import SelectorCatalog.Indexing.Contract
import SelectorCatalog.Indexing.Run
import SelectorCatalog.Json.Key
import SelectorCatalog.Json.Reader
import SelectorCatalog.Json.Shape
import SelectorCatalog.Json.Value
import SelectorCatalog.Json.Writer
import SelectorCatalog.Lexicographic
import SelectorCatalog.Main
import SelectorCatalog.Number.Double
import SelectorCatalog.Number.Layout
import SelectorCatalog.Number.Shortest
import SelectorCatalog.Proofs.Compiler.Banner
import SelectorCatalog.Proofs.Compiler.Diagnostics
import SelectorCatalog.Proofs.Compiler.Downloads
import SelectorCatalog.Proofs.Compiler.Memory
import SelectorCatalog.Proofs.Compiler.Pinned
import SelectorCatalog.Proofs.Compiler.Retries
import SelectorCatalog.Proofs.Compiler.Returned
import SelectorCatalog.Proofs.Compiler.Shape
import SelectorCatalog.Proofs.Config.Layers
import SelectorCatalog.Proofs.Config.Misuse
import SelectorCatalog.Proofs.Config.Usable
import SelectorCatalog.Proofs.Contract.ContentId
import SelectorCatalog.Proofs.Contract.SettingsText
import SelectorCatalog.Proofs.Contract.StoredForm
import SelectorCatalog.Proofs.Contract.ToldApart
import SelectorCatalog.Proofs.Corpus.Batches
import SelectorCatalog.Proofs.Corpus.Layouts
import SelectorCatalog.Proofs.Corpus.Libraries
import SelectorCatalog.Proofs.Corpus.Loading
import SelectorCatalog.Proofs.Corpus.Normal
import SelectorCatalog.Proofs.Corpus.Reading
import SelectorCatalog.Proofs.Corpus.Storable
import SelectorCatalog.Proofs.Database.Commit
import SelectorCatalog.Proofs.Database.Kept
import SelectorCatalog.Proofs.Database.Pending
import SelectorCatalog.Proofs.Database.Replacing
import SelectorCatalog.Proofs.Database.Statistics
import SelectorCatalog.Proofs.Database.Stored
import SelectorCatalog.Proofs.Database.Storing
import SelectorCatalog.Proofs.Database.Tally
import SelectorCatalog.Proofs.Export.Cleaning
import SelectorCatalog.Proofs.Export.Coexistence
import SelectorCatalog.Proofs.Export.Confinement
import SelectorCatalog.Proofs.Export.Document
import SelectorCatalog.Proofs.Export.FreeNames
import SelectorCatalog.Proofs.Export.NameKept
import SelectorCatalog.Proofs.Export.Reload
import SelectorCatalog.Proofs.Export.Targets
import SelectorCatalog.Proofs.Files.Confined
import SelectorCatalog.Proofs.Files.Folders
import SelectorCatalog.Proofs.Files.Inner
import SelectorCatalog.Proofs.Files.Listing
import SelectorCatalog.Proofs.Files.Making
import SelectorCatalog.Proofs.Files.Written
import SelectorCatalog.Proofs.FirstItem
import SelectorCatalog.Proofs.Functions.Attribution
import SelectorCatalog.Proofs.Functions.Entries
import SelectorCatalog.Proofs.Functions.Exact
import SelectorCatalog.Proofs.Functions.Extracted
import SelectorCatalog.Proofs.Functions.Interface
import SelectorCatalog.Proofs.Functions.Linearization
import SelectorCatalog.Proofs.Functions.Overrides
import SelectorCatalog.Proofs.Functions.Ranges
import SelectorCatalog.Proofs.Functions.Reordering
import SelectorCatalog.Proofs.Functions.Signatures
import SelectorCatalog.Proofs.Functions.StatedSelectors
import SelectorCatalog.Proofs.Functions.SyntaxShape
import SelectorCatalog.Proofs.Indexing.Budget
import SelectorCatalog.Proofs.Indexing.Consistency
import SelectorCatalog.Proofs.Indexing.Outcome
import SelectorCatalog.Proofs.Indexing.Queue
import SelectorCatalog.Proofs.Indexing.Reachable
import SelectorCatalog.Proofs.Indexing.Reference
import SelectorCatalog.Proofs.Indexing.Resumption
import SelectorCatalog.Proofs.Json.DistinctNames
import SelectorCatalog.Proofs.Json.Extent
import SelectorCatalog.Proofs.Json.Inherited
import SelectorCatalog.Proofs.Json.Lines
import SelectorCatalog.Proofs.Json.Marks
import SelectorCatalog.Proofs.Json.RoundTrip
import SelectorCatalog.Proofs.Json.Shape
import SelectorCatalog.Proofs.Pairs
import SelectorCatalog.Proofs.Solidity.Fragments
import SelectorCatalog.Proofs.Solidity.Names
import SelectorCatalog.Proofs.Steps
import SelectorCatalog.Proofs.Text.Cutting
import SelectorCatalog.Proofs.Text.Encoding
import SelectorCatalog.Proofs.Text.KeyOrder
import SelectorCatalog.Proofs.Text.LowerCase
import SelectorCatalog.Proofs.Text.Numerals
import SelectorCatalog.Proofs.Text.Parts
import SelectorCatalog.Proofs.Text.Trimmed
import SelectorCatalog.Solidity.Declaration
import SelectorCatalog.Solidity.Lexeme
import SelectorCatalog.Stop
import SelectorCatalog.Text.Base64
import SelectorCatalog.Text.Blank
import SelectorCatalog.Text.CodePoint
import SelectorCatalog.Text.Digit
import SelectorCatalog.Text.Hex
import SelectorCatalog.Text.LowerCase
import SelectorCatalog.Text.Numeral
import SelectorCatalog.Text.Printable
import SelectorCatalog.Text.Quoted
import SelectorCatalog.Text.Utf8
import SelectorCatalog.Text.Word
import SelectorCatalog.Workspace.Basic
import SelectorCatalog.Workspace.Snapshot
