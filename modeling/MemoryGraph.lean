-- SUMMARY: The whole library.
import MemoryGraph.CommandLine
import MemoryGraph.Embedding.Blob
import MemoryGraph.Embedding.Distance
import MemoryGraph.Embedding.Embedder
import MemoryGraph.Embedding.Service
import MemoryGraph.Import.Comparison
import MemoryGraph.Import.Decision
import MemoryGraph.Import.Mode
import MemoryGraph.Import.Run
import MemoryGraph.Json.Basic
import MemoryGraph.Json.Printer
import MemoryGraph.Json.Reader
import MemoryGraph.Json.Token
import MemoryGraph.Main
import MemoryGraph.Number.Decimal
import MemoryGraph.Number.Double
import MemoryGraph.Number.Numeral
import MemoryGraph.Number.Single
import MemoryGraph.Number.Sum
import MemoryGraph.Proofs.Accounting
import MemoryGraph.Proofs.Admission
import MemoryGraph.Proofs.Advice
import MemoryGraph.Proofs.AliasUnion
import MemoryGraph.Proofs.Backfill
import MemoryGraph.Proofs.Branch
import MemoryGraph.Proofs.ByteOrder
import MemoryGraph.Proofs.Chain
import MemoryGraph.Proofs.Compared
import MemoryGraph.Proofs.Count
import MemoryGraph.Proofs.Creation
import MemoryGraph.Proofs.DocumentText
import MemoryGraph.Proofs.ExportDepth
import MemoryGraph.Proofs.Forecast
import MemoryGraph.Proofs.Freshness
import MemoryGraph.Proofs.FullRanking
import MemoryGraph.Proofs.FusedSearch
import MemoryGraph.Proofs.Fusion
import MemoryGraph.Proofs.Handover
import MemoryGraph.Proofs.ImportInPlace
import MemoryGraph.Proofs.ImportModes
import MemoryGraph.Proofs.InPlace
import MemoryGraph.Proofs.Integrity
import MemoryGraph.Proofs.JsonText
import MemoryGraph.Proofs.Keyed
import MemoryGraph.Proofs.LenientArguments
import MemoryGraph.Proofs.Lineage
import MemoryGraph.Proofs.Linking
import MemoryGraph.Proofs.LowerWords
import MemoryGraph.Proofs.Merge
import MemoryGraph.Proofs.MergeOrder
import MemoryGraph.Proofs.MergedAliases
import MemoryGraph.Proofs.NodeKeys
import MemoryGraph.Proofs.Numerals
import MemoryGraph.Proofs.Observing
import MemoryGraph.Proofs.Operation
import MemoryGraph.Proofs.Outcome
import MemoryGraph.Proofs.PathTree
import MemoryGraph.Proofs.Pieces
import MemoryGraph.Proofs.Places
import MemoryGraph.Proofs.Preservation
import MemoryGraph.Proofs.Prune
import MemoryGraph.Proofs.Ranking
import MemoryGraph.Proofs.Rebuild
import MemoryGraph.Proofs.Reimport
import MemoryGraph.Proofs.Reparent
import MemoryGraph.Proofs.Repetition
import MemoryGraph.Proofs.Reshaping
import MemoryGraph.Proofs.RoundTrip
import MemoryGraph.Proofs.Scoring
import MemoryGraph.Proofs.Selection
import MemoryGraph.Proofs.SettingLayers
import MemoryGraph.Proofs.Statements
import MemoryGraph.Proofs.StoredVectors
import MemoryGraph.Proofs.Trimming
import MemoryGraph.Proofs.Visit
import MemoryGraph.Proofs.Write
import MemoryGraph.Record.Alias
import MemoryGraph.Record.Basic
import MemoryGraph.Record.Encoding
import MemoryGraph.Record.Moment
import MemoryGraph.Record.Refusal
import MemoryGraph.Record.Validation
import MemoryGraph.Reshape.Merge
import MemoryGraph.Reshape.Prune
import MemoryGraph.Reshape.Reparent
import MemoryGraph.Search.Field
import MemoryGraph.Search.Fusion
import MemoryGraph.Search.Meaning
import MemoryGraph.Search.Words
import MemoryGraph.Server.Argument
import MemoryGraph.Server.Call
import MemoryGraph.Server.Message
import MemoryGraph.Server.Perform
import MemoryGraph.Server.Session
import MemoryGraph.Server.Tool
import MemoryGraph.Settings
import MemoryGraph.Store.Basic
import MemoryGraph.Store.Edit
import MemoryGraph.Store.Rows
import MemoryGraph.StoreFile.Catalogue
import MemoryGraph.StoreFile.Definition
import MemoryGraph.StoreFile.Image
import MemoryGraph.StoreFile.Opening
import MemoryGraph.StoreFile.Path
import MemoryGraph.StoreFile.Row
import MemoryGraph.Suggestion
import MemoryGraph.Text.Blank
import MemoryGraph.Text.Case
import MemoryGraph.Text.CaseTable
import MemoryGraph.Text.Pieces
import MemoryGraph.Toml.Reader
import MemoryGraph.Toml.Table
import MemoryGraph.Tree.Codec
import MemoryGraph.Tree.Document
import MemoryGraph.Tree.OfStore
import MemoryGraph.Tree.Path
