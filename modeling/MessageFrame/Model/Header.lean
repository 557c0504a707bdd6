import Mathlib.Data.Int.Notation
import MessageFrame.ForMathlib.FixedWidth
import MessageFrame.Model.Structures

/-!
# The message header

Eight fixed-width fields. `MessageHeader.unpack` assigns them one by one, straight into the
live header, and converts each field before assigning it: when the conversion of a field
throws, the fields before it have been replaced and the others have not. A header section
that is not an array of at least eight elements is skipped and leaves the header as it was.
-/

namespace MsgFrame

open Msgpack

/-- `MessageHeader`. -/
structure MessageHeader where
  timestamp : UInt64
  messageCnt : UInt64 := 0
  sourceId : UInt32 := 0
  targetId : UInt32 := 0
  messageId : Int32 := 0
  messageType : Int32 := 0
  version : UInt16 := 1
  flags : UInt16 := 0
  deriving DecidableEq, Repr

namespace MessageHeader

/-- The setters of a header. The identifiers of any integer or enum type are cast to
`int32_t`, hence reduced modulo `2 ^ 32`; `now` is the clock at the time of the call. -/
inductive Setter where
  | setVersion (protoVersion : UInt16)
  | setFlags (msgFlags : UInt16)
  | setMessageCounter (cnt : UInt64)
  | setTimestamp (ts : UInt64)
  | setSourceID (srcId : UInt32)
  | setTargetID (tgtId : UInt32)
  | updateTimestamp (now : UInt64)
  | setMessageId (id : ℤ)
  | setMessageType (type : ℤ)
  deriving Repr

/-- The effect of a setter. -/
def apply : Setter → MessageHeader → MessageHeader
  | .setVersion protoVersion, h => { h with version := protoVersion }
  | .setFlags msgFlags, h => { h with flags := msgFlags }
  | .setMessageCounter cnt, h => { h with messageCnt := cnt }
  | .setTimestamp ts, h => { h with timestamp := ts }
  | .setSourceID srcId, h => { h with sourceId := srcId }
  | .setTargetID tgtId, h => { h with targetId := tgtId }
  | .updateTimestamp now, h => { h with timestamp := now }
  | .setMessageId id, h => { h with messageId := Int32.ofInt id }
  | .setMessageType type, h => { h with messageType := Int32.ofInt type }

/-- The constructor from identifiers and addresses, at clock time `now`. -/
def ofIds (now : UInt64) (msgId msgType : ℤ) (srcId tgtId : UInt32) (msgCnt : UInt64)
    (protoVersion msgFlags : UInt16) : MessageHeader :=
  apply (.updateTimestamp now) <| apply (.setMessageType msgType) <|
    apply (.setMessageId msgId)
      { timestamp := now, messageCnt := msgCnt, sourceId := srcId, targetId := tgtId,
        version := protoVersion, flags := msgFlags }

/-- `getMessageId<IdT>`, where the type `T` is `IdT` or what the enum `IdT` is based on. -/
def getMessageId (T : IntType) (h : MessageHeader) : T.Val := T.ofInt h.messageId.toInt

/-- `getMessageType<TypeT>`. -/
def getMessageType (T : IntType) (h : MessageHeader) : T.Val := T.ofInt h.messageType.toInt

variable (M : Codec)

/-- `MessageHeader::pack`. -/
def pack (h : MessageHeader) : Proc ByteString Unit := do
  write (M.packArray 8)
  write (M.packUInt64 h.timestamp)
  write (M.packUInt64 h.messageCnt)
  write (M.packUInt32 h.sourceId)
  write (M.packUInt32 h.targetId)
  write (M.packInt32 h.messageId)
  write (M.packInt32 h.messageType)
  write (M.packUInt16 h.version)
  write (M.packUInt16 h.flags)

/-- One assignment `field = ptr[i].as<T>()`: the conversion comes first and may throw. -/
def unpackField {α : Type} (elems : List Object) (i : ℕ) (as : Object → Option α)
    (assign : α → MessageHeader → MessageHeader) : Proc MessageHeader Unit := do
  let obj ← Proc.eval (Checked.at elems i)
  let value ← Proc.orThrow (as obj)
  Proc.modify (assign value)

/-- `MessageHeader::unpack`. -/
def unpack (obj : Object) : Proc MessageHeader Unit :=
  match obj with
  | .array elems =>
    -- an early return: the header keeps all its fields
    if elems.length < 8 then pure ()
    else do
      unpackField elems 0 M.asUInt64 fun v h => { h with timestamp := v }
      unpackField elems 1 M.asUInt64 fun v h => { h with messageCnt := v }
      unpackField elems 2 M.asUInt32 fun v h => { h with sourceId := v }
      unpackField elems 3 M.asUInt32 fun v h => { h with targetId := v }
      unpackField elems 4 M.asInt32 fun v h => { h with messageId := v }
      unpackField elems 5 M.asInt32 fun v h => { h with messageType := v }
      unpackField elems 6 M.asUInt16 fun v h => { h with version := v }
      unpackField elems 7 M.asUInt16 fun v h => { h with flags := v }
  | _ => pure ()

end MessageHeader

end MsgFrame
