import Dossier.Catalog.Grouping
import Dossier.Catalog.Object
import Dossier.Document
import Dossier.Json.Leaf
import Dossier.Proofs.CatalogRegistration
import Dossier.Proofs.CodecTrip
import Dossier.Proofs.DocumentIndices
import Dossier.Proofs.History
import Dossier.Proofs.IdentifierGrammar
import Dossier.Proofs.IdentifierRuns
import Dossier.Proofs.KeyOrder
import Dossier.Proofs.ListAssignment
import Dossier.Proofs.ListDecoding
import Dossier.Proofs.Prebuilt
import Dossier.Proofs.Reachable
import Dossier.Proofs.RecordReading
import Dossier.Proofs.Relating
import Dossier.Proofs.Stripping
import Dossier.Proofs.Tags
import Dossier.Proofs.TextTrip
import Dossier.Proofs.TimestampGrammar
import Dossier.Proofs.TimestampMillis
import Dossier.Proofs.TimestampTrip
import Dossier.Proofs.TypeResolution
