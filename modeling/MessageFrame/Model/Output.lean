import MessageFrame.ForMathlib.GrowingVector
import MessageFrame.Model.MessageFrame

/-!
# Serialization under memory pressure

`serialize` and what it calls, once more, with an output buffer in memory: a byte vector that has a
capacity, and whose allocations can throw `std::bad_alloc`. `VectorBuffer` reserves memory when it
is constructed and lets the vector grow whenever it is written to.

The packer writes what it packs in one piece or in several, as it likes. Packing a string that is
too long throws before anything of it is written.
-/

namespace MsgFrame

open Msgpack GrowingVector

/-- The output vector of `serialize`. -/
abbrev OutputBuffer := GrowingVector UInt8

variable (fails : ℕ → Bool)

/-- The constructor of `VectorBuffer`. -/
def OutputBuffer.vectorBuffer : Proc OutputBuffer Unit := do
  GrowingVector.clear
  let buf ← Proc.get
  if buf.capacity < 1024 then reserve fails 1024

variable (pieces : Pieces UInt8)

/-- Bytes of the packer, each piece of which is a call of `VectorBuffer::write`. -/
def OutputBuffer.write (bytes : ByteString) : Proc OutputBuffer Unit :=
  insertPieces fails pieces bytes

variable (M : Codec)

/-- `MessageHeader::pack`. -/
def MessageHeader.packInto (h : MessageHeader) : Proc OutputBuffer Unit := do
  OutputBuffer.write fails pieces (M.packArray 8)
  OutputBuffer.write fails pieces (M.packUInt64 h.timestamp)
  OutputBuffer.write fails pieces (M.packUInt64 h.messageCnt)
  OutputBuffer.write fails pieces (M.packUInt32 h.sourceId)
  OutputBuffer.write fails pieces (M.packUInt32 h.targetId)
  OutputBuffer.write fails pieces (M.packInt32 h.messageId)
  OutputBuffer.write fails pieces (M.packInt32 h.messageType)
  OutputBuffer.write fails pieces (M.packUInt16 h.version)
  OutputBuffer.write fails pieces (M.packUInt16 h.flags)

/-- `ParameterValue::pack`. -/
def ParameterValue.packInto (v : ParameterValue) : Proc OutputBuffer Unit := do
  OutputBuffer.write fails pieces (M.packArray 2)
  OutputBuffer.write fails pieces (M.packUInt8 v.type.raw)
  match v with
  | .int64 n => OutputBuffer.write fails pieces (M.packInt64 n)
  | .double d => OutputBuffer.write fails pieces (M.packDouble d)
  | .bool b => OutputBuffer.write fails pieces (M.packBool b)
  | .string s =>
    let bytes ← Proc.orThrow (M.packString s)
    OutputBuffer.write fails pieces bytes
  | .unknown => OutputBuffer.write fails pieces M.packNil

/-- One round of the loops of `pack`. -/
def HybridMessageMap.packEntryInto (pair : ParameterKey × ParameterValue) :
    Proc OutputBuffer Unit := do
  let bytes ← Proc.orThrow (M.packString pair.1.fullKey)
  OutputBuffer.write fails pieces bytes
  pair.2.packInto fails pieces M

variable {μ : Type} [UnorderedMap μ ParameterKey ParameterValue]

/-- `HybridMessageMap::pack`. -/
def HybridMessageMap.packInto (m : HybridMessageMap μ) : Proc OutputBuffer Unit := do
  let n ← Proc.eval m.size
  OutputBuffer.write fails pieces (M.packMap n.toUInt32)
  if m.isVectorMode then Proc.forEach (packEntryInto fails pieces M) m.vectorStorage
  else
    match m.mapStorage with
    | some map => Proc.forEach (packEntryInto fails pieces M) (UnorderedMap.toList map)
    | none => pure ()

/-- One round of the attachment loop of `serialize`. -/
def MessageFrame.packAttachmentInto (attach : Attachment) : Proc OutputBuffer Unit := do
  OutputBuffer.write fails pieces (M.packArray 2)
  let name ← Proc.orThrow (M.packString attach.name)
  OutputBuffer.write fails pieces name
  OutputBuffer.write fails pieces (M.packBin attach.rawData.length.toUInt32)
  OutputBuffer.write fails pieces (M.packBinBody attach.rawData attach.rawData.length.toUInt32)

/-- `serialize`. -/
def MessageFrame.serializeInto (f : MessageFrame μ) : Proc OutputBuffer Unit := do
  GrowingVector.clear
  let buf ← Proc.get
  if buf.capacity < 512 then reserve fails 512
  OutputBuffer.vectorBuffer fails
  OutputBuffer.write fails pieces (M.packArray 3)
  f.header.packInto fails pieces M
  f.parameters.packInto fails pieces M
  OutputBuffer.write fails pieces (M.packArray f.attachments.length.toUInt32)
  Proc.forEach (packAttachmentInto fails pieces M) f.attachments

end MsgFrame
