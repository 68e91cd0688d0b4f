import HostBridge.Bridge
import HostBridge.Converter.Stock
import HostBridge.HostFunction.Stock
import HostBridge.Proofs.Bridge.SelfDescription
import HostBridge.Proofs.Declaration.ArgumentValues
import HostBridge.Proofs.Declaration.Grammar
import HostBridge.Proofs.Method.Alignment
import HostBridge.Proofs.Adapter.Instantiation
import HostBridge.Proofs.Adapter.Verification
import HostBridge.Proofs.Bridge.Dispatch
import HostBridge.Proofs.Bridge.LookupOrder
import HostBridge.Proofs.Method.Results
import HostBridge.Proofs.Classification
import HostBridge.Proofs.MethodTable.Sources
import HostBridge.Proofs.Adapter.Revalidation
import HostBridge.Proofs.Bridge.Revalidation
import HostBridge.Proofs.Bridge.MissingValues
import HostBridge.Proofs.Converter.TypedRoundTrip
import HostBridge.Proofs.Declaration.ArgumentPlaces
import HostBridge.Proofs.Method.CallOrder
import HostBridge.Proofs.MethodTable.Calls
import HostBridge.Proofs.Converter.Rules
import HostBridge.Proofs.Host.Assignability
import HostBridge.Proofs.Bridge.AdapterLookup
import HostBridge.Proofs.Converter.NaturalForm
import HostBridge.Proofs.Converter.MapKeys
import HostBridge.Proofs.Binary.Representation
import HostBridge.Proofs.Script.Maps
import HostBridge.Proofs.Script.Recovery
import HostBridge.Proofs.Adapter.Composition
import HostBridge.Proofs.Adapter.Accessors
import HostBridge.Proofs.Host.Forms
import HostBridge.Proofs.Converter.Results
import HostBridge.Proofs.Converter.Integers
import HostBridge.Proofs.Identity.Exchange
import HostBridge.Proofs.Identity.Replacement
import HostBridge.Proofs.Identity.Spelling
