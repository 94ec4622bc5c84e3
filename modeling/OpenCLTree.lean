import OpenCLTree.Main
import OpenCLTree.Proofs.Accessors
import OpenCLTree.Proofs.Appending
import OpenCLTree.Proofs.Bookkeeping
import OpenCLTree.Proofs.BraceRecovery
import OpenCLTree.Proofs.CursorCoherence
import OpenCLTree.Proofs.Declarators
import OpenCLTree.Proofs.DiagnosticOrder
import OpenCLTree.Proofs.EscapeGrammar
import OpenCLTree.Proofs.FailedLine
import OpenCLTree.Proofs.FieldCatalog
import OpenCLTree.Proofs.Formed
import OpenCLTree.Proofs.LexicalCoverage
import OpenCLTree.Proofs.LexicalErrors
import OpenCLTree.Proofs.Lossless
import OpenCLTree.Proofs.MaximalMunch
import OpenCLTree.Proofs.NameResolution
import OpenCLTree.Proofs.NearestElse
import OpenCLTree.Proofs.Positions
import OpenCLTree.Proofs.Preorder
import OpenCLTree.Proofs.PreprocessorLines
import OpenCLTree.Proofs.Printing.Pointers
import OpenCLTree.Proofs.Progress
import OpenCLTree.Proofs.Safety
import OpenCLTree.Proofs.ScopeUndo
import OpenCLTree.Proofs.Skeleton
