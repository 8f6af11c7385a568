import Metamodel.Main
import Metamodel.Proofs.Additions
import Metamodel.Proofs.Addressing
import Metamodel.Proofs.Coverage
import Metamodel.Proofs.DeclaredNames
import Metamodel.Proofs.DocumentReading
import Metamodel.Proofs.DoubleContainment
import Metamodel.Proofs.EnumVariants
import Metamodel.Proofs.Getters
import Metamodel.Proofs.Identifiers
import Metamodel.Proofs.InheritanceCycles
import Metamodel.Proofs.InheritedFeatures
import Metamodel.Proofs.IntegerDefaults
import Metamodel.Proofs.Interruption
import Metamodel.Proofs.Isolation
import Metamodel.Proofs.LocalFlaws
import Metamodel.Proofs.LongestChain
import Metamodel.Proofs.ModelText
import Metamodel.Proofs.ModulePaths
import Metamodel.Proofs.PropertyValues
import Metamodel.Proofs.ReferenceList
import Metamodel.Proofs.Refusal
import Metamodel.Proofs.ResolvedGeneration
import Metamodel.Proofs.SavedSettings
import Metamodel.Proofs.SnakeForm
import Metamodel.Proofs.StructFields
import Metamodel.Proofs.SummaryComments
import Metamodel.Proofs.TraitClosure
import Metamodel.Proofs.TraitMethods
import Metamodel.Proofs.UnresolvedLinks
