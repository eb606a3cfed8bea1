import FactoryLowering.Attribution
import FactoryLowering.Chain
import FactoryLowering.Proofs.Attribution
import FactoryLowering.Proofs.DeclaredTypes
import FactoryLowering.Proofs.FactoryHelpers.Commutation
import FactoryLowering.Proofs.FactoryHelpers.Exactness
import FactoryLowering.Proofs.FactoryHelpers.Idempotence
import FactoryLowering.Proofs.FactoryHelpers.Lookup
import FactoryLowering.Proofs.FactoryHelpers.Spelling
import FactoryLowering.Proofs.HelperExecution
import FactoryLowering.Proofs.HostSelection
import FactoryLowering.Proofs.ImportList
import FactoryLowering.Proofs.NodeIdentity
import FactoryLowering.Proofs.OwnerChange.Capture
import FactoryLowering.Proofs.OwnerChange.Exactness
import FactoryLowering.Proofs.OwnerChange.Gating
import FactoryLowering.Proofs.PassReports
import FactoryLowering.Proofs.PatternGrammar
import FactoryLowering.Proofs.References
import FactoryLowering.Proofs.Tree.Indentation
import FactoryLowering.Proofs.Tree.Traversal
import FactoryLowering.Proofs.TypeNames
