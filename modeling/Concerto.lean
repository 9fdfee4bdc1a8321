import Concerto.Main
import Concerto.Model.Edit
import Concerto.Proofs.Command.Ending
import Concerto.Proofs.Command.Exchange
import Concerto.Proofs.Command.Import
import Concerto.Proofs.Model.Composition
import Concerto.Proofs.Model.Failure
import Concerto.Proofs.Model.ImportForms
import Concerto.Proofs.Model.Insertion
import Concerto.Proofs.Model.Numbers
import Concerto.Proofs.Model.Order
import Concerto.Proofs.Model.Pattern
import Concerto.Proofs.Pattern.Name
import Concerto.Proofs.Registry.Atomicity
import Concerto.Proofs.Registry.Conformance
import Concerto.Proofs.Registry.Growth
import Concerto.Proofs.Registry.Idempotence
import Concerto.Proofs.Registry.Import
import Concerto.Proofs.Registry.Remainder
import Concerto.Proofs.Registry.Validation
import Concerto.Proofs.Schema.KeyOrder
import Concerto.Proofs.Token.Identifier
import Concerto.Proofs.Token.Literal
import Concerto.Proofs.Token.Tiling
