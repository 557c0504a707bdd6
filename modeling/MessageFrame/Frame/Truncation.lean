import MessageFrame.Frame.RoundTrip
import MessageFrame.MessagePack.Streaming

/-!
# Buffers that are cut off or run on

A transport without message boundaries may hand over less than a sender has serialized, or more.
Too little is always noticed, wherever the buffer is cut, and then the receiver is as it was. Too
much makes no difference: only the first object of a buffer is read.
-/

namespace MsgFrame

open Msgpack

namespace MessageFrame

variable {μ : Type} [UnorderedMap μ ParameterKey ParameterValue] {M : Codec}
  {same : Double → Double → Prop}

/-- A buffer that does not parse is rejected before anything is decoded. -/
theorem deserialize_of_unpack_eq_none {bytes : ByteString} (h : M.unpack bytes = none)
    (r : MessageFrame μ) : deserialize M (some bytes) r = .returned false r := by
  rw [deserialize]
  split_ifs
  · rfl
  · have hbody : deserializeBody M bytes r = .threw r := by
      rw [deserializeBody, h]
      rfl
    rw [Proc.tryCatch_of_threw hbody]
    rfl

/-- Buffers that parse to the same object are received alike. -/
theorem deserialize_congr {bytes bytes' : ByteString} (hne : bytes.length ≠ 0)
    (hne' : bytes'.length ≠ 0) (h : M.unpack bytes' = M.unpack bytes) :
    (deserialize M (some bytes') : Proc (MessageFrame μ) Bool) = deserialize M (some bytes) := by
  rw [deserialize, deserialize, if_neg hne, if_neg hne', deserializeBody, deserializeBody, h]

variable [LawfulUnorderedMap μ]

/-- **Cuts are noticed, additions are not.** With a library that reads an object without looking
behind it, take what any frame that fits the wire has serialized. Every proper beginning of it is
rejected and leaves the receiver as it was; whatever stands behind it, it is accepted, and received
as it is without. -/
theorem truncation_noticed (hM : M.Lawful same) (hstream : M.Streams) {f : MessageFrame μ}
    (hf : Reachable M f) (hfit : FitsWire f) :
    ∃ bytes, (∀ buffer, f.serialize M buffer = .returned () bytes) ∧ ∀ r : MessageFrame μ,
      (∀ cut, cut <+: bytes → cut ≠ bytes → deserialize M (some cut) r = .returned false r) ∧
      ∃ r', ∀ extra, deserialize M (some (bytes ++ extra)) r = .returned true r' := by
  obtain ⟨bytes, pairs, hser, hdec, -⟩ := serialize_packs hM hf.inv hfit
  refine ⟨bytes, hser, fun r => ⟨fun cut hcut hne => ?_, ?_⟩⟩
  · exact deserialize_of_unpack_eq_none (hdec.cut hstream hcut hne) r
  · obtain ⟨bytes', -, r', -, hser', -, -, hdes, -⟩ := serialize_deserialize hM hf.inv hfit r
    obtain rfl : bytes' = bytes := by
      have hsame := (hser' []).symm.trans (hser [])
      injection hsame
    refine ⟨r', fun extra => ?_⟩
    have hlen := length_ne_zero hM hdec
    have hunpack : M.unpack (bytes' ++ extra) = M.unpack bytes' := by
      rw [hdec.unpack_eq, Codec.unpack, hdec extra, Option.map_some]
    rw [deserialize_congr hlen (by rw [List.length_append]; omega) hunpack, hdes]

/-- A frame with an attachment takes eighteen bytes: seventeen are not enough, nineteen no harm. -/
theorem truncation_noticed_attachment :
    deserialize Wire.codec
        (some [0x93, 0x98, 7, 0, 0, 0, 0, 0, 1, 0, 0x80, 0x91, 0x92, 0xa1, 99, 0xc4, 1])
        (construct { timestamp := 8 } {} : MessageFrame (ListMap ParameterKey ParameterValue)) =
      .returned false (construct { timestamp := 8 } {}) ∧
    ∃ r', deserialize Wire.codec
        (some [0x93, 0x98, 7, 0, 0, 0, 0, 0, 1, 0, 0x80, 0x91, 0x92, 0xa1, 99, 0xc4, 1, 1, 0xc1])
        (construct { timestamp := 8 } {} : MessageFrame (ListMap ParameterKey ParameterValue)) =
      .returned true r' := by
  have hreach : Reachable Wire.codec (⟨{ timestamp := 7 }, {}, [⟨[99], [1]⟩]⟩ :
      MessageFrame (ListMap ParameterKey ParameterValue)) :=
    .call (.addAttachment [99] [1]) (.construct 7 {}) rfl
  have hfit : FitsWire (⟨{ timestamp := 7 }, {}, [⟨[99], [1]⟩]⟩ :
      MessageFrame (ListMap ParameterKey ParameterValue)) := by
    refine .of_entries (by decide) (fun e he => absurd he List.not_mem_nil) (by decide) ?_
    intro a ha
    obtain rfl := List.mem_singleton.mp ha
    exact ⟨by decide, by decide⟩
  obtain ⟨bytes, hser, hreceive⟩ := truncation_noticed Wire.lawful Wire.streams hreach hfit
  obtain ⟨hcut, r', hextra⟩ := hreceive (construct { timestamp := 8 } {})
  cases hser []
  exact ⟨hcut _ (by decide) (by decide), r', hextra [0xc1]⟩

end MessageFrame

end MsgFrame
