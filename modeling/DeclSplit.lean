import DeclSplit.Boundary
import DeclSplit.Chunk.Encoding
import DeclSplit.CommandLine
import DeclSplit.File.Disk
import DeclSplit.Index.Encoding
import DeclSplit.Index.Error
import DeclSplit.Language.Resolve
import DeclSplit.Main
import DeclSplit.Program
import DeclSplit.Scan
import DeclSplit.Session
import DeclSplit.Settings.Encoding
import DeclSplit.Settings.EnvFile
import DeclSplit.Settings.Source
import DeclSplit.Settings.Validation
import DeclSplit.Settings.Variables
import DeclSplit.Text.Encoding
import DeclSplit.Proofs.Boundary.Filter
import DeclSplit.Proofs.Boundary.Hierarchy
import DeclSplit.Proofs.Boundary.Order
import DeclSplit.Proofs.Boundary.Shift
import DeclSplit.Proofs.Chunk
import DeclSplit.Proofs.Chunk.Documentation
import DeclSplit.Proofs.Chunk.Encoding
import DeclSplit.Proofs.CommandLine
import DeclSplit.Proofs.Documentation
import DeclSplit.Proofs.Documentation.Run
import DeclSplit.Proofs.Grammar
import DeclSplit.Proofs.Index.Fallback
import DeclSplit.Proofs.Index.Kinds
import DeclSplit.Proofs.Index.Offsets
import DeclSplit.Proofs.Index.Report
import DeclSplit.Proofs.Naming
import DeclSplit.Proofs.Session.History
import DeclSplit.Proofs.Session.Ledger
import DeclSplit.Proofs.Settings.Encoding
import DeclSplit.Proofs.Settings.Kinds
import DeclSplit.Proofs.Settings.Layers
import DeclSplit.Proofs.Settings.Source
import DeclSplit.Proofs.Text.Encoding
import DeclSplit.Proofs.Tree.Shift
import DeclSplit.Proofs.Language
import DeclSplit.Proofs.Naming.Descent
import DeclSplit.Proofs.Scan.Tree
