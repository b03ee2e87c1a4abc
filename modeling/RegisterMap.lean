import RegisterMap.Accessor.Module
import RegisterMap.Accessor.Writer
import RegisterMap.Check.Inspection
import RegisterMap.Command.Run
import RegisterMap.Fragment.Appending
import RegisterMap.Main
import RegisterMap.Proofs.Emission
import RegisterMap.Proofs.Name.Style
import RegisterMap.Proofs.NameScope
import RegisterMap.Proofs.Procedure.Document
import RegisterMap.Proofs.Naming
import RegisterMap.Proofs.Names
import RegisterMap.Proofs.Members
import RegisterMap.Proofs.Classes
import RegisterMap.Proofs.Docstring
import RegisterMap.Proofs.Generation
import RegisterMap.Proofs.Claimed
import RegisterMap.Proofs.Builtins
import RegisterMap.Proofs.PrivateNames
import RegisterMap.Proofs.References
import RegisterMap.Proofs.Identifiers
import RegisterMap.Proofs.Procedure.Frame.Checks
import RegisterMap.Proofs.Layout
import RegisterMap.Proofs.Capabilities
import RegisterMap.Proofs.Fragment.RoundTrip
import RegisterMap.Proofs.Freshness
import RegisterMap.Proofs.Procedure.Overlap
import RegisterMap.Proofs.KeyOrder.Document
import RegisterMap.Proofs.Procedure.Undefined
import RegisterMap.Proofs.Procedure.UnknownKeys
import RegisterMap.Proofs.Docstring.Literal
import RegisterMap.Proofs.Fragment.Descriptions
import RegisterMap.Proofs.SplitAddress
import RegisterMap.Proofs.Fields
import RegisterMap.Proofs.RangeGrammar
import RegisterMap.Proofs.UsableNames
import RegisterMap.Proofs.Name.Splitting
