import LexTree.Language.Bundled
import LexTree.Language.Clause
import LexTree.Language.Config
import LexTree.Main
import LexTree.Proofs.BlockEnds
import LexTree.Proofs.Coverage
import LexTree.Proofs.Dumps
import LexTree.Proofs.Filters
import LexTree.Proofs.Indentation
import LexTree.Proofs.Measure
import LexTree.Proofs.Nesting
import LexTree.Proofs.Regrouping
import LexTree.Proofs.Seam
import LexTree.Proofs.Sizes
import LexTree.Proofs.Slices
import LexTree.Proofs.Tables
import LexTree.Proofs.Words
import LexTree.Scan.Observe
import LexTree.Scope.Inspect
