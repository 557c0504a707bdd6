import MessageFrame.Frame.Calls
import MessageFrame.MessagePack.WireLawful

/-!
# What a rejected buffer leaves behind

`deserialize` decodes into the live frame and does not roll back. A buffer that has no three
sections is rejected before anything is touched. Any other buffer that is rejected has been
decoded up to the conversion that failed: the header fields before it are replaced, the
parameters are the entries before it once the header has got through, and so on; what comes
behind it is as it was. The frame stays valid, so that it can be used after a rejection.
-/

namespace MsgFrame

open Msgpack AssocList

namespace MessageFrame

variable {μ : Type} [UnorderedMap μ ParameterKey ParameterValue]

variable [LawfulUnorderedMap μ]

end MessageFrame

end MsgFrame
