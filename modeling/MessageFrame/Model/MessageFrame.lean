import MessageFrame.Model.HybridMessageMap
import MessageFrame.Model.Header

/-!
# The message frame

A frame is a header, a parameter container and a list of attachments. `serialize` packs the
three one after another into the output buffer; `deserialize` unpacks them one after another
**into the live frame**, inside a `try` block that turns every exception into the result
`false`. Nothing is rolled back: the sections and fields that were decoded before the
exception stay in the frame. The local value of the decoder of the parameters is not seen here; it
is an object of the program in `MessageFrame.Scoped.deserialize`.

`FrameCall` collects the calls that change a frame, and `FrameCall.exec` is the step function
of a frame under them.
-/

namespace MsgFrame

open Msgpack

/-! ### The frame -/

/-- `MessageFrame`. -/
structure MessageFrame (μ : Type) where
  header : MessageHeader
  parameters : HybridMessageMap μ
  attachments : List Attachment
  deriving DecidableEq

namespace MessageFrame

variable {μ : Type} [UnorderedMap μ ParameterKey ParameterValue]

/-- The constructors of a frame: the parts are constructed, and there are no attachments. The
header constructors always succeed, and so does the one of the container. -/
def construct (header : MessageHeader) (config : FrameConfig) : MessageFrame μ where
  header := header
  parameters := HybridMessageMap.ofConfig config
  attachments := []

/-- The implicit move constructor: member by member. -/
def moveConstruct (other : MessageFrame μ) : MessageFrame μ × MessageFrame μ :=
  let p := HybridMessageMap.moveConstruct other.parameters
  ({ header := other.header, parameters := p.1, attachments := other.attachments },
   { other with parameters := p.2, attachments := [] })

/-- The implicit move assignment from another frame: member by member. -/
def moveAssign (this other : MessageFrame μ) : MessageFrame μ × MessageFrame μ :=
  let p := HybridMessageMap.moveAssign false this.parameters other.parameters
  ({ header := other.header, parameters := p.1, attachments := other.attachments },
   { other with parameters := p.2, attachments := [] })

/-- Run a procedure on the header. -/
def onHeader {α : Type} : Proc MessageHeader α → Proc (MessageFrame μ) α :=
  Proc.onField MessageFrame.header fun f h => { f with header := h }

/-- Run a procedure on the parameters. -/
def onParameters {α : Type} : Proc (HybridMessageMap μ) α → Proc (MessageFrame μ) α :=
  Proc.onField MessageFrame.parameters fun f p => { f with parameters := p }

/-- `parameters_size`. -/
def parametersSize (f : MessageFrame μ) : Checked ℕ := f.parameters.size

/-- `find`. -/
def find (f : MessageFrame μ) (device param : ByteString) : Checked (Option ParameterValue) :=
  f.parameters.find device param

/-- `find_flat`. -/
def findFlat (f : MessageFrame μ) (flatKey : FlatKey) : Checked (Option ParameterValue) :=
  f.parameters.findFlat flatKey

/-- `iterate_parameters`. -/
def iterateParameters {σ : Type} (f : MessageFrame μ)
    (callback : Option (σ → ByteString → ParameterValue → σ)) (userData : σ) : σ :=
  f.parameters.iterate callback userData

/-- `add_attachment`. -/
def addAttachment (name data : ByteString) : Proc (MessageFrame μ) Unit :=
  Proc.modify fun f => { f with attachments := f.attachments ++ [⟨name, data⟩] }

/-- `clear`: parameters and attachments, not the header. -/
def clear : Proc (MessageFrame μ) Unit := do
  onParameters HybridMessageMap.clear
  Proc.modify fun f => { f with attachments := [] }

variable (M : Codec)

/-- One round of the attachment loop of `serialize`: name and data as a pair. -/
def packAttachment (attach : Attachment) : Proc ByteString Unit := do
  write (M.packArray 2)
  let name ← Proc.orThrow (M.packString attach.name)
  write name
  write (M.packBin attach.rawData.length.toUInt32)
  write (M.packBinBody attach.rawData attach.rawData.length.toUInt32)

/-- `serialize`, as a procedure on the output buffer, which is cleared first. -/
def serialize (f : MessageFrame μ) : Proc ByteString Unit := do
  Proc.modify fun _ => []
  write (M.packArray 3)
  f.header.pack M
  f.parameters.pack M
  write (M.packArray f.attachments.length.toUInt32)
  Proc.forEach (packAttachment M) f.attachments

/-- One round of the attachment loop of `deserialize`. The attachment is appended with empty
data as soon as its name is converted; data of another type than `BIN` stays empty. An element
that is not a pair is skipped. -/
def unpackAttachment (obj : Object) : Proc (MessageFrame μ) Unit :=
  match obj with
  | .array pair =>
    if pair.length < 2 then pure ()
    else do
      let nameObj ← Proc.eval (Checked.at pair 0)
      let name ← Proc.orThrow (M.asString nameObj)
      Proc.modify fun f => { f with attachments := f.attachments ++ [⟨name, []⟩] }
      let dataObj ← Proc.eval (Checked.at pair 1)
      match dataObj with
      | .bin data =>
        Proc.modify fun f =>
          { f with attachments :=
              f.attachments.modify (f.attachments.length - 1) fun a => { a with rawData := data } }
      | _ => pure ()
  | _ => pure ()

/-- The third section of `deserialize`. -/
def unpackAttachments (obj : Object) : Proc (MessageFrame μ) Unit := do
  Proc.modify fun f => { f with attachments := [] }
  match obj with
  | .array elems => Proc.forEach (unpackAttachment M) elems
  | _ => pure ()

/-- The body of the `try` block of `deserialize`. -/
def deserializeBody (data : ByteString) : Proc (MessageFrame μ) Bool := do
  let root ← Proc.orThrow (M.unpack data)
  match root with
  | .array elems =>
    if elems.length < 3 then pure false
    else do
      let headerObj ← Proc.eval (Checked.at elems 0)
      onHeader (MessageHeader.unpack M headerObj)
      let parametersObj ← Proc.eval (Checked.at elems 1)
      onParameters (HybridMessageMap.unpack M parametersObj)
      let attachmentsObj ← Proc.eval (Checked.at elems 2)
      unpackAttachments M attachmentsObj
      pure true
  | _ => pure false

/-- `deserialize`; `none` is a null data pointer. -/
def deserialize (data : Option ByteString) : Proc (MessageFrame μ) Bool :=
  match data with
  | none => pure false
  | some bytes =>
    if bytes.length = 0 then pure false
    -- the handler restores nothing
    else Proc.tryCatch (deserializeBody M bytes) (pure false)

end MessageFrame

/-! ### Calls on a frame -/

/-- The calls of the frame API that change a frame. -/
inductive FrameCall where
  | parameters (call : MapCall)
  | header (setter : MessageHeader.Setter)
  | addAttachment (name data : ByteString)
  | clear
  | deserialize (data : Option ByteString)

section

variable {μ : Type} [UnorderedMap μ ParameterKey ParameterValue] (M : Codec)

/-- Execute a call on a frame. -/
def FrameCall.exec : FrameCall → Proc (MessageFrame μ) Reply
  | .parameters call => MessageFrame.onParameters call.exec
  | .header setter => do
    MessageFrame.onHeader (Proc.modify (MessageHeader.apply setter))
    pure .void
  | .addAttachment name data => do
    MessageFrame.addAttachment name data
    pure .void
  | .clear => do
    MessageFrame.clear
    pure .void
  | .deserialize data => do
    let b ← MessageFrame.deserialize M data
    pure (.bool b)

/-- The frames that a client can build: constructed, subjected to any calls, and moved into
from another such frame. A frame that has been moved from is not among them. -/
inductive MessageFrame.Reachable : MessageFrame μ → Prop
  | construct (now : UInt64) (config : FrameConfig) :
    Reachable (MessageFrame.construct { timestamp := now } config)
  | constructIds (now : UInt64) (msgId msgType : ℤ) (srcId tgtId : UInt32) (msgCnt : UInt64)
      (protoVersion msgFlags : UInt16) (config : FrameConfig) :
    Reachable (MessageFrame.construct
      (MessageHeader.ofIds now msgId msgType srcId tgtId msgCnt protoVersion msgFlags) config)
  | call {f f' : MessageFrame μ} {r : Reply} (c : FrameCall) :
    Reachable f → c.exec M f = .returned r f' → Reachable f'
  | moveConstruct {f : MessageFrame μ} : Reachable f → Reachable (moveConstruct f).1
  | moveAssign {f g : MessageFrame μ} : Reachable f → Reachable g → Reachable (moveAssign g f).1

end

end MsgFrame
