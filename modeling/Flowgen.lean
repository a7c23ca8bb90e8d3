import Flowgen.Credential
import Flowgen.Docs.Publishing
import Flowgen.Main
import Flowgen.Proofs.TopologicalOrder
import Flowgen.Proofs.ConversionFaults
import Flowgen.Proofs.ClassSyntax
import Flowgen.Proofs.LeftPlaceholders
import Flowgen.Proofs.CredentialImports
import Flowgen.Proofs.ConnectionShapes
import Flowgen.Proofs.TranslatedPaths
import Flowgen.Proofs.MixedTexts
import Flowgen.Proofs.FillOrders
import Flowgen.Proofs.BodyDocuments
import Flowgen.Proofs.UsedNames
import Flowgen.Proofs.ProviderClasses
import Flowgen.Proofs.ConstructorSignatures
import Flowgen.Proofs.WrittenTypes
import Flowgen.Proofs.EndedInput
import Flowgen.Proofs.SafeNames
import Flowgen.Proofs.ReadTemplates
import Flowgen.Proofs.ClassNames
import Flowgen.Proofs.PageDivision
import Flowgen.Proofs.ResolvedSettings
import Flowgen.Proofs.OpenCalls
