import FortranFront.Analysis
import FortranFront.Report
import FortranFront.Proofs.Complaint
import FortranFront.Proofs.SymbolTable
import FortranFront.Proofs.History
import FortranFront.Proofs.Skeleton
import FortranFront.Proofs.Filling
import FortranFront.Proofs.Resolves
import FortranFront.Proofs.Locals
import FortranFront.Proofs.Declared
import FortranFront.Proofs.Violations.Declarations
import FortranFront.Proofs.Violations.Bodies
import FortranFront.Proofs.Sessions
import FortranFront.Proofs.LateFailure
import FortranFront.Proofs.Written
import FortranFront.Proofs.Erasure
import FortranFront.Proofs.WellFormed
import FortranFront.Proofs.Overwriting
import FortranFront.Proofs.Independence
import FortranFront.Proofs.Joining
import FortranFront.Proofs.Composition
import FortranFront.Proofs.Relabelling
import FortranFront.Proofs.Naturality
import FortranFront.Proofs.Layout
import FortranFront.Proofs.Ownership
import FortranFront.Proofs.Denotations
import FortranFront.Proofs.Strictness
import FortranFront.Proofs.DummyArguments
import FortranFront.Proofs.Letters
import FortranFront.Proofs.Agreement
import FortranFront.Proofs.Pruning
import FortranFront.Proofs.Spelling
import FortranFront.Proofs.Visiting
import FortranFront.Proofs.Records
import FortranFront.Proofs.DeclaredVariables
import FortranFront.Proofs.References
import FortranFront.Proofs.Places
import FortranFront.Proofs.ReportLines
import FortranFront.Proofs.Counterparts
import FortranFront.Proofs.Bindings
import FortranFront.Proofs.Reordering
import FortranFront.Proofs.Covering
import FortranFront.Proofs.Merging
import FortranFront.Proofs.Emission
import FortranFront.Proofs.LineTexts
import FortranFront.Proofs.RowTexts
import FortranFront.Proofs.Labels
import FortranFront.Proofs.HeaderColumns
import FortranFront.Proofs.Underlines
import FortranFront.Proofs.LeastCover
import FortranFront.Proofs.LineLocality
import FortranFront.Proofs.ColourCodes
import FortranFront.Proofs.Quotations
import FortranFront.Proofs.Mismatches
import FortranFront.Proofs.Extents
