import DeviceTree.Document.Json
import DeviceTree.Document.Yaml
import DeviceTree.Registry.Bits
import DeviceTree.Registry.References
import DeviceTree.Loading.Nodes
import DeviceTree.Size
import DeviceTree.Style
import DeviceTree.Dummy
import DeviceTree.CommandLine.Run
import DeviceTree.Main
import DeviceTree.Proofs.Validity
import DeviceTree.Proofs.GuardedCalls
import DeviceTree.Proofs.LoadedTrees
import DeviceTree.Proofs.SizeBounds
import DeviceTree.Proofs.Layouts
import DeviceTree.Proofs.Bitfields
import DeviceTree.Proofs.Nesting
import DeviceTree.Proofs.Results
import DeviceTree.Proofs.Listings
import DeviceTree.Proofs.HandlerNames
import DeviceTree.Proofs.Contributions
import DeviceTree.Proofs.TypeOrder
import DeviceTree.Proofs.SignalEvents
import DeviceTree.Proofs.InlineTypes
import DeviceTree.Proofs.Shorthand
import DeviceTree.Proofs.Draws
import DeviceTree.Proofs.RecognizedKeys
import DeviceTree.Proofs.GeneratedValues
import DeviceTree.Proofs.DecimalText
import DeviceTree.Proofs.Culprits
import DeviceTree.Proofs.ErrorLocations
import DeviceTree.Proofs.DecimalGrammar
import DeviceTree.Proofs.Equality
import DeviceTree.Proofs.SizeRules
import DeviceTree.Proofs.BitSpans
import DeviceTree.Proofs.Constraints
import DeviceTree.Proofs.MapFields
import DeviceTree.Proofs.Settling
import DeviceTree.Proofs.Productivity
import DeviceTree.Proofs.NodeMethods
import DeviceTree.Proofs.HandlerContexts
import DeviceTree.Proofs.DummyClock
import DeviceTree.Proofs.StandardMethods
import DeviceTree.Proofs.StyleAdvice
import DeviceTree.Proofs.AliasChains
