import MessageFrame.Container.Transparency
import MessageFrame.Frame.RoundTrip

/-!
# Integers through the casts of the API

An integer parameter is cast to `int64_t` by `VALUE` and is an `int64_t` from then on; a message
identifier is cast to `int32_t` by its setter and to the type of the caller by its getter. The
wire changes neither: what is read on the receiver is what is read locally (`EndToEnd`).

So an integer survives exactly if it survives the casts. For a parameter, this is to be below
`2 ^ 63`, which only 64-bit unsigned integers can miss. For an identifier it is to fit 32 bits,
either by its type or by its value (`FitsInt32`).
-/

namespace MsgFrame

open Msgpack AssocList

/-- The identifier is of a type of at most 32 bits, or is in the range of `int32_t`, when taken
as a signed number of the width of its type. -/
def FitsInt32 (T : IntType) (id : T.Val) : Prop :=
  T.width ≤ 32 ∨ IntType.int32.InRange ((T.withSign IntType.int32).cast id.val)

/-- **Identifiers**: cast to `int32_t` and back. -/
theorem ofInt_toInt_eq_iff {T : IntType} (id : T.Val) :
    T.ofInt (Int32.ofInt id.val).toInt = id ↔ FitsInt32 T id := by
  rw [IntType.toInt_ofInt32]
  exact Subtype.ext_iff.trans (IntType.cast_cast_eq_iff id.property)

/-- **Parameters**: cast to `int64_t`. -/
theorem toInt_eq_iff {T : IntType} (hT : T.width ≤ 64) (x : T.Val) :
    (Int64.ofInt x.val).toInt = x.val ↔ x.val < 2 ^ 63 := by
  rw [IntType.toInt_ofInt64, IntType.cast_eq_self_iff]
  have hmin : -2 ^ 63 ≤ T.minValue := by
    have hhalf : (2 : ℤ) ^ (T.width - 1) ≤ 2 ^ 63 :=
      pow_le_pow_right₀ (by decide) (Nat.sub_le_sub_right hT 1)
    unfold IntType.minValue
    split_ifs
    · omega
    · decide
  constructor
  · exact fun h => h.2
  · exact fun h => ⟨Int.le_trans hmin x.property.1, h⟩

namespace MessageFrame

variable {μ : Type} [UnorderedMap μ ParameterKey ParameterValue]

/-- A property of the frame that every receiver of what the frame serializes has as well, if the
frame fits the wire. -/
def EndToEnd (M : Codec) (P : MessageFrame μ → Prop) (f : MessageFrame μ) : Prop :=
  P f ∧ (FitsWire f → ∀ r buffer, ∃ bytes r', f.serialize M buffer = .returned () bytes ∧
    deserialize M (some bytes) r = .returned true r' ∧ P r')

/-- Every lookup of the key answers with a value of which `tryGetInt` is `n`. -/
def ReadsInt (key : ByteString) (n : Int64) (f : MessageFrame μ) : Prop :=
  (∀ device param, composeKey device param = key →
    ∃ v, f.find device param = .ok (some v) ∧ v.tryGetInt = some n) ∧
  ∀ flatKey : FlatKey, flatKey.view = key →
    ∃ v, f.findFlat flatKey = .ok (some v) ∧ v.tryGetInt = some n

variable [LawfulUnorderedMap μ] {M : Codec} {same : Double → Double → Prop}

theorem readsInt_of_lookup {f : MessageFrame μ} (h : f.parameters.Inv) {key : ByteString}
    {n : Int64} (hlookup : f.parameters.entries.lookup ⟨key⟩ = some (.int64 n)) :
    ReadsInt key n f := by
  constructor
  · rintro device param rfl
    have hfind := HybridMessageMap.find_eq h device param
    rw [hlookup] at hfind
    exact ⟨_, hfind, rfl⟩
  · rintro flatKey rfl
    have hfind := HybridMessageMap.findFlat_eq h flatKey
    rw [hlookup] at hfind
    exact ⟨_, hfind, rfl⟩

/-- What the lookup of a key shows is carried to every receiver. -/
theorem endToEnd_readsInt (hM : M.Lawful same) {f : MessageFrame μ} (h : f.parameters.Inv)
    {key : ByteString} {n : Int64}
    (hlookup : f.parameters.entries.lookup ⟨key⟩ = some (.int64 n)) :
    EndToEnd M (ReadsInt key n) f := by
  refine ⟨readsInt_of_lookup h hlookup, fun hfit r buffer => ?_⟩
  obtain ⟨bytes, pairs, r', l, hser, -, -, hdes, hholds⟩ := serialize_deserialize hM h hfit r
  refine ⟨bytes, r', hser buffer, hdes, readsInt_of_lookup hholds.inv ?_⟩
  have hrel := HybridMessageMap.lookup_rel hholds.entries ⟨key⟩
  rw [hlookup, ← hholds.lookup] at hrel
  generalize r'.parameters.entries.lookup ⟨key⟩ = found at hrel
  cases hrel with
  | some hsame =>
    cases hsame
    rfl

/-- What the header shows is carried to every receiver. -/
theorem endToEnd_header (hM : M.Lawful same) {f : MessageFrame μ} (h : f.parameters.Inv)
    {P : MessageHeader → Prop} (hP : P f.header) : EndToEnd M (fun f => P f.header) f := by
  refine ⟨hP, fun hfit r buffer => ?_⟩
  obtain ⟨bytes, pairs, r', l, hser, -, -, hdes, hholds⟩ := serialize_deserialize hM h hfit r
  have hheader : P r'.header := by rwa [hholds.header]
  exact ⟨bytes, r', hser buffer, hdes, hheader⟩

/-- An insertion of an absent key, or a `set`, is what the key is then found with. -/
theorem lookup_of_stores {f g : MessageFrame μ} {c : MapCall} {r : Reply} {key : ByteString}
    {val : ParameterValue} (h : f.parameters.Inv)
    (hop : c.op = .insert key val ∨ c.op = .upsert key val)
    (hadd : HybridMessageMap.AddsAbsent c f.parameters)
    (he : HybridMessageMap.Effect f.parameters c.op r g.parameters) :
    r = .void ∧ g.parameters.entries.lookup ⟨key⟩ = some val := by
  have hins : ⟨key⟩ ∉ keys f.parameters.entries →
      HybridMessageMap.Inserted f.parameters ⟨key⟩ val g.parameters →
      g.parameters.entries.lookup ⟨key⟩ = some val := by
    intro hnot hi
    rw [hi.lookup, lookup_append_singleton, lookup_eq_none.mpr hnot, if_pos rfl]
    rfl
  rcases hop with hop | hop
  · have hfind := hadd key val hop
    rw [HybridMessageMap.findView_eq h, Except.ok.injEq, lookup_eq_none] at hfind
    rw [hop] at he
    cases he with
    | insert hi => exact ⟨rfl, hins hfind hi⟩
  · rw [hop] at he
    cases he with
    | upsertOld hmem ha =>
      refine ⟨rfl, ?_⟩
      rw [ha.entries, lookup_replaceFirst hmem, if_pos rfl]
    | upsertNew hnot hi => exact ⟨rfl, hins hnot hi⟩

/-- **Integers end to end.** Take any frame a client can build and any lawful MessagePack
library.

* An integer of any type of at most 64 bits that is stored by a `set`, or by an `add` of an absent
  key, is read locally and on every receiver as one and the same `int64_t`, which is the integer
  if and only if the integer is below `2 ^ 63`.
* An identifier of any integer or enum type that is set in the header, by a setter or by the
  constructor, is read locally and on every receiver as itself if and only if it fits 32 bits. -/
theorem integers_end_to_end (hM : M.Lawful same) {f : MessageFrame μ} (hf : Reachable M f) :
    (∀ (T : IntType) (x : T.Val) (c : MapCall) (key : ByteString), T.width ≤ 64 →
      c.op = .insert key (VALUE (.integral T x)) ∨ c.op = .upsert key (VALUE (.integral T x)) →
      HybridMessageMap.AddsAbsent c f.parameters →
      ∃ f' n, FrameCall.exec M (.parameters c) f = .returned .void f' ∧
        EndToEnd M (ReadsInt key n) f' ∧ (n.toInt = x.val ↔ x.val < 2 ^ 63)) ∧
    (∀ (T : IntType) (id : T.Val), ∃ f',
      FrameCall.exec M (.header (.setMessageId id.val)) f = .returned .void f' ∧
        EndToEnd M (fun g => g.header.getMessageId T = id ↔ FitsInt32 T id) f') ∧
    (∀ (T : IntType) (type : T.Val), ∃ f',
      FrameCall.exec M (.header (.setMessageType type.val)) f = .returned .void f' ∧
        EndToEnd M (fun g => g.header.getMessageType T = type ↔ FitsInt32 T type) f') ∧
    ∀ (now : UInt64) (T T' : IntType) (msgId : T.Val) (msgType : T'.Val) (srcId tgtId : UInt32)
      (msgCnt : UInt64) (protoVersion msgFlags : UInt16) (config : FrameConfig),
      EndToEnd M (fun g : MessageFrame μ =>
          (g.header.getMessageId T = msgId ↔ FitsInt32 T msgId) ∧
            (g.header.getMessageType T' = msgType ↔ FitsInt32 T' msgType))
        (construct (MessageHeader.ofIds now msgId.val msgType.val srcId tgtId msgCnt protoVersion
          msgFlags) config) := by
  refine ⟨?_, ?_, ?_, ?_⟩
  · intro T x c key hT hop hadd
    obtain ⟨r, f', hexec, heff⟩ := FrameCall.exec_spec M hf.inv (.parameters c)
    have hinv := heff.inv hf.inv
    cases heff with
    | parameters heff =>
      obtain ⟨rfl, hlookup⟩ := lookup_of_stores (g := { f with parameters := _ }) hf.inv hop
        hadd heff
      exact ⟨_, _, hexec, endToEnd_readsInt hM hinv hlookup, toInt_eq_iff hT x⟩
  · intro T id
    exact ⟨_, rfl, endToEnd_header hM
      (f := { f with header := f.header.apply (.setMessageId id.val) })
      (P := fun h => h.getMessageId T = id ↔ FitsInt32 T id) hf.inv (ofInt_toInt_eq_iff id)⟩
  · intro T type
    exact ⟨_, rfl, endToEnd_header hM
      (f := { f with header := f.header.apply (.setMessageType type.val) })
      (P := fun h => h.getMessageType T = type ↔ FitsInt32 T type) hf.inv
      (ofInt_toInt_eq_iff type)⟩
  · intro now T T' msgId msgType srcId tgtId msgCnt protoVersion msgFlags config
    exact endToEnd_header hM (HybridMessageMap.ofConfig_inv config)
      (P := fun h => (h.getMessageId T = msgId ↔ FitsInt32 T msgId) ∧
        (h.getMessageType T' = msgType ↔ FitsInt32 T' msgType))
      ⟨ofInt_toInt_eq_iff msgId, ofInt_toInt_eq_iff msgType⟩

/-- The smallest `int64_t` as a parameter, and an 8-bit identifier. -/
theorem integers_end_to_end_extreme :
    ∃ (f' : MessageFrame (ListMap ParameterKey ParameterValue)) (n : Int64),
      FrameCall.exec Wire.codec (.parameters (.set [97] [98]
        (.rvalue (VALUE (.integral IntType.int64 ⟨-2 ^ 63, by decide⟩)))))
          (construct { timestamp := 0 } {}) = .returned .void f' ∧
      EndToEnd Wire.codec (ReadsInt [97, 0x1F, 98] n) f' ∧ n.toInt = -2 ^ 63 := by
  obtain ⟨f', n, hexec, hreads, hiff⟩ := (integers_end_to_end
    (μ := ListMap ParameterKey ParameterValue) Wire.lawful (.construct 0 {})).1 IntType.int64
    ⟨-2 ^ 63, by decide⟩ (.set [97] [98] (.rvalue (VALUE (.integral IntType.int64
      ⟨-2 ^ 63, by decide⟩)))) [97, 0x1F, 98] (by decide) (.inr rfl)
    (fun key val hop => by cases hop)
  exact ⟨f', n, hexec, hreads, hiff.mpr (by decide)⟩

/-- The largest 64-bit unsigned integer is stored as `-1`, and the 64-bit identifier `2 ^ 32` comes
back as `0`. -/
theorem integers_wrap :
    (∃ (f' : MessageFrame (ListMap ParameterKey ParameterValue)) (v : ParameterValue) (n : Int64),
      FrameCall.exec Wire.codec (.parameters (.set [97] [98]
        (.rvalue (VALUE (.integral ⟨64, false, by decide⟩ ⟨2 ^ 64 - 1, by decide⟩)))))
          (construct { timestamp := 0 } {}) = .returned .void f' ∧
      f'.find [97] [98] = .ok (some v) ∧ v.tryGetInt = some n ∧ n.toInt ≠ 2 ^ 64 - 1) ∧
    ∃ f' : MessageFrame (ListMap ParameterKey ParameterValue),
      FrameCall.exec Wire.codec (.header (.setMessageId (2 ^ 32)))
        (construct { timestamp := 0 } {}) = .returned .void f' ∧
      (f'.header.getMessageId IntType.int64).val ≠ 2 ^ 32 :=
  ⟨⟨_, _, _, rfl, rfl, rfl, by decide⟩, ⟨_, rfl, by decide⟩⟩

end MessageFrame

end MsgFrame
