import MessageFrame.Container.Aliasing
import MessageFrame.Container.Allocation
import MessageFrame.Container.Ample
import MessageFrame.Container.Assertions
import MessageFrame.Container.Calls
import MessageFrame.Container.Conversion
import MessageFrame.Container.Endings
import MessageFrame.Container.FlatForms
import MessageFrame.Container.Invariant
import MessageFrame.Container.Moves
import MessageFrame.Container.Pressure
import MessageFrame.Container.Reception
import MessageFrame.Container.Recovery
import MessageFrame.Container.Refinement
import MessageFrame.Container.Search
import MessageFrame.Container.Steady
import MessageFrame.Container.Transparency
import MessageFrame.Container.Unpack
import MessageFrame.Container.Uses
import MessageFrame.ForMathlib.Asserting
import MessageFrame.ForMathlib.AssocList
import MessageFrame.ForMathlib.FixedWidth
import MessageFrame.ForMathlib.GrowingVector
import MessageFrame.ForMathlib.Ledger
import MessageFrame.ForMathlib.ObjectStore
import MessageFrame.ForMathlib.PartialMap
import MessageFrame.ForMathlib.Proc
import MessageFrame.ForMathlib.Projection
import MessageFrame.ForMathlib.Runs
import MessageFrame.ForMathlib.UnorderedMap
import MessageFrame.Frame.Calls
import MessageFrame.Frame.Casts
import MessageFrame.Frame.Deserialize
import MessageFrame.Frame.ForeignReader
import MessageFrame.Frame.Grammar
import MessageFrame.Frame.Hint
import MessageFrame.Frame.Isolation
import MessageFrame.Frame.Layout
import MessageFrame.Frame.Leakage
import MessageFrame.Frame.LocalValue
import MessageFrame.Frame.Message
import MessageFrame.Frame.Moves
import MessageFrame.Frame.Narrowing
import MessageFrame.Frame.Network
import MessageFrame.Frame.Output
import MessageFrame.Frame.Pressure
import MessageFrame.Frame.Rejection
import MessageFrame.Frame.Relay
import MessageFrame.Frame.RoundTrip
import MessageFrame.Frame.Truncation
import MessageFrame.Frame.Uniqueness
import MessageFrame.MessagePack.Basic
import MessageFrame.MessagePack.Packs
import MessageFrame.MessagePack.Streaming
import MessageFrame.MessagePack.Wire
import MessageFrame.MessagePack.WireLawful
import MessageFrame.Model.Aliasing
import MessageFrame.Model.Allocation
import MessageFrame.Model.Assertions
import MessageFrame.Model.FrameAllocation
import MessageFrame.Model.Header
import MessageFrame.Model.HybridMessageMap
import MessageFrame.Model.LocalValue
import MessageFrame.Model.MessageFrame
import MessageFrame.Model.Output
import MessageFrame.Model.Structures
import MessageFrame.Model.TaggedUnion
import MessageFrame.Model.Value
import MessageFrame.Value.Lifetimes
import MessageFrame.Value.Operations
import MessageFrame.Value.Refinement
