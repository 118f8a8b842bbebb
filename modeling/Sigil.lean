import Sigil.Check
import Sigil.Context
import Sigil.Declarations
import Sigil.Diagnostic
import Sigil.Error
import Sigil.Event
import Sigil.Hierarchy
import Sigil.Inference
import Sigil.Listing
import Sigil.Name
import Sigil.Proofs.Ancestry
import Sigil.Proofs.Reading
import Sigil.Proofs.Results
import Sigil.Report
import Sigil.Session
import Sigil.Source.Excerpt
import Sigil.Source.File
import Sigil.Span
import Sigil.Symbol
import Sigil.SymbolTable
import Sigil.Syntax.Equality
import Sigil.Syntax.Expr
import Sigil.Syntax.Stmt
import Sigil.Text.Align
import Sigil.Text.Ranges
import Sigil.Text.Wide
import Sigil.Text.Width
import Sigil.Text.ZeroWidth
import Sigil.Ty
import Sigil.Proofs.Traversal
import Sigil.Proofs.Effects
import Sigil.Proofs.Order
import Sigil.Proofs.Steps
import Sigil.Proofs.Lookup
import Sigil.Proofs.Members
import Sigil.Proofs.Coherence
import Sigil.Proofs.Footprint
import Sigil.Proofs.Faults
import Sigil.Proofs.Justification
import Sigil.Proofs.TypedNodes
import Sigil.Proofs.Environments
import Sigil.Proofs.Operands
import Sigil.Proofs.InferenceTyping
import Sigil.Proofs.Acceptance
import Sigil.Proofs.Growth
import Sigil.Proofs.KnownTypes
import Sigil.Proofs.Stability
import Sigil.Proofs.Weakening
import Sigil.Proofs.Commutation
import Sigil.Proofs.Removal
import Sigil.Proofs.Lockstep
import Sigil.Proofs.Forest
import Sigil.Proofs.Resolution
import Sigil.Proofs.ValueTypes
import Sigil.Proofs.Arithmetic
import Sigil.Proofs.Resumption
import Sigil.Proofs.Equivariance
import Sigil.Proofs.Renaming
import Sigil.Proofs.Chains
import Sigil.Proofs.FirstWins
import Sigil.Proofs.Chronicle
import Sigil.Proofs.Readback
import Sigil.Proofs.TightSpans
