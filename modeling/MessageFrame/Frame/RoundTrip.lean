import Mathlib.Data.List.Forall2
import Mathlib.Data.Option.Basic
import MessageFrame.Frame.Layout
import MessageFrame.MessagePack.WireLawful

/-!
# The frame round trip

Each unpack routine reads back what the pack routine has written (`Frame/Layout.lean`): values,
header, parameters, attachments, and then the frame. The sender may be in either storage mode
and may hold duplicates; the receiver may be any frame at all, and chooses its storage by the
number of pairs on the wire. The two come together in that a sender with more than
`smallCapacity` entries is in map mode, so that the first occurrences the receiver keeps are all
of them.

Doubles come back as the relation `same` of the library says; everything else comes back as it
was.
-/

namespace MsgFrame

open Msgpack AssocList

/-! ### Values and header -/

section Values

variable {M : Codec} {same : Double → Double → Prop}

/-- What `ParameterValue::unpack` does with the tag of a known type. -/
private theorem unpack_tagged (hM : M.Lawful same) (t : ValueType) (payload : Object) :
    ParameterValue.unpack M (.array [.positiveInteger t.raw.toUInt64, payload]) =
      match t with
      | .int64 => (M.asInt64 payload).map .int64
      | .double => (M.asDouble payload).map .double
      | .bool => (M.asBool payload).map .bool
      | .string => (M.asStringView payload).map .string
      | .unknown => some .unknown := by
  rw [ParameterValue.unpack, hM.asUInt8]
  cases t <;> rfl

/-- **Values**: a tagged value is read back, with the same tag and the same payload. -/
theorem ParameterValue.Tagged.unpack (hM : M.Lawful same) {v : ParameterValue} {obj : Object}
    (h : Tagged M same v obj) :
    ∃ v', ParameterValue.unpack M obj = some v' ∧ SameValue same v v' := by
  cases h with
  | unknown => exact ⟨_, unpack_tagged hM .unknown _, .unknown⟩
  | int64 n =>
    refine ⟨_, (unpack_tagged hM .int64 _).trans ?_, .int64 n⟩
    rw [hM.asInt64, Option.map_some]
  | double has hsame =>
    refine ⟨_, (unpack_tagged hM .double _).trans ?_, .double hsame⟩
    rw [has, Option.map_some]
  | string s =>
    refine ⟨_, (unpack_tagged hM .string _).trans ?_, .string s⟩
    rw [hM.asStringView, Option.map_some]
  | bool b =>
    refine ⟨_, (unpack_tagged hM .bool _).trans ?_, .bool b⟩
    rw [hM.asBool, Option.map_some]

/-- **Header**: all eight fields are read back, over any header. -/
theorem MessageHeader.received_fieldObjects (hM : M.Lawful same) (h h' : MessageHeader) :
    MessageHeader.convertible M (.array h.fieldObjects) = true ∧
      MessageHeader.received M (.array h.fieldObjects) h' = h := by
  have hlen : ¬h.fieldObjects.length < 8 := by simp [MessageHeader.fieldObjects]
  have hreads : MessageHeader.reads M (.array h.fieldObjects) =
      [some fun g => { g with timestamp := h.timestamp },
        some fun g => { g with messageCnt := h.messageCnt },
        some fun g => { g with sourceId := h.sourceId },
        some fun g => { g with targetId := h.targetId },
        some fun g => { g with messageId := h.messageId },
        some fun g => { g with messageType := h.messageType },
        some fun g => { g with version := h.version },
        some fun g => { g with flags := h.flags }] := by
    rw [MessageHeader.reads, if_neg hlen]
    simp [MessageHeader.fieldRead, MessageHeader.fieldObjects, hM.asUInt64, hM.asUInt32, hM.asInt32,
      hM.asUInt16]
  rw [MessageHeader.convertible, MessageHeader.received, hreads]
  exact ⟨rfl, rfl⟩

end Values

/-! ### Parameters -/

/-- Same key and same value. -/
def SameEntry (same : Double → Double → Prop) (e e' : ParameterKey × ParameterValue) : Prop :=
  e'.1 = e.1 ∧ ParameterValue.SameValue same e.2 e'.2

namespace HybridMessageMap

variable {M : Codec} {same : Double → Double → Prop}

/-- **Entries**: the pairs of a list of entries are received as the same entries, in the same
order. -/
theorem received_pairs (hM : M.Lawful same) {l : List (ParameterKey × ParameterValue)}
    {pairs : List (Object × Object)} (h : List.Forall₂ (PairOf M same) l pairs) :
    convertible M (.map pairs) = true ∧
      List.Forall₂ (SameEntry same) l (received M (.map pairs)) := by
  rw [convertible, received, pairsOf]
  induction h with
  | nil => exact ⟨rfl, .nil⟩
  | @cons e pair l pairs hpair _ ih =>
    obtain ⟨v', hunpack, hsame⟩ := hpair.tagged.unpack hM
    have hwire : wireEntry M pair = some (e.1, v') := by
      simp [wireEntry, hpair.key, hM.asStringView, hunpack]
    obtain ⟨hconv, hrec⟩ := ih
    constructor
    · rw [Proc.converts, List.all_cons, hwire]
      exact hconv
    · rw [Proc.converted, hwire]
      exact .cons ⟨rfl, hsame⟩ hrec

/-- Lookups agree in lists of the same entries. -/
theorem lookup_rel {l l' : List (ParameterKey × ParameterValue)}
    (h : List.Forall₂ (SameEntry same) l l') (k : ParameterKey) :
    Option.Rel (ParameterValue.SameValue same) (l.lookup k) (l'.lookup k) := by
  induction h with
  | nil => exact .none
  | @cons e e' l l' he _ ih =>
    rw [lookup_cons, lookup_cons, he.1]
    split_ifs
    · exact .some he.2
    · exact ih

theorem keys_eq_of_forall₂ {l l' : List (ParameterKey × ParameterValue)}
    (h : List.Forall₂ (SameEntry same) l l') : keys l' = keys l := by
  induction h with
  | nil => rfl
  | cons he _ ih => rw [keys_cons, keys_cons, he.1, ih]

variable {μ : Type} [UnorderedMap μ ParameterKey ParameterValue] [LawfulUnorderedMap μ]

/-- What a receiver holds after it has unpacked the entries of a valid sender: the same
entries, in the same order unless there are too many for the vector. -/
theorem Unpacked.perm_received {m r r' : HybridMessageMap μ} (h : m.Inv)
    {pairs : List (Object × Object)} (hu : Unpacked M (.map pairs) r r')
    (hlen : pairs.length = m.entries.length)
    (hsame : List.Forall₂ (SameEntry same) m.entries (received M (.map pairs))) :
    r'.entries.Perm (received M (.map pairs)) ∧
      (m.entries.length ≤ smallCapacity → r'.entries = received M (.map pairs)) := by
  rcases hu.entries_cases with ⟨-, he⟩ | ⟨hbig, hperm⟩
  · exact ⟨by rw [he], fun _ => he⟩
  · -- more entries than the vector takes: the sender is in map mode, hence without duplicates
    have hbig' : smallCapacity < m.entries.length := hlen ▸ hbig
    have hmode : m.isVectorMode = false := by
      by_contra hvec
      exact Nat.not_le.mpr hbig' (length_entries_le h (Bool.not_eq_false _ ▸ hvec))
    have hnd : (keys (received M (.map pairs))).Nodup := by
      rw [keys_eq_of_forall₂ hsame]
      exact nodup_keys_of_map_mode h hmode
    rw [firsts_eq_self hnd] at hperm
    exact ⟨hperm, fun hsmall => absurd hbig' (Nat.not_lt.mpr hsmall)⟩

end HybridMessageMap

/-! ### Attachments -/

namespace MessageFrame

theorem receivedAttachments_packed {M : Codec} {same : Double → Double → Prop}
    (hM : M.Lawful same) (l : List Attachment) :
    attachmentsConvertible M (.array (l.map attachmentObject)) = true ∧
      receivedAttachments M (.array (l.map attachmentObject)) = l := by
  have hread : List.Forall₂ (fun obj read => wireAttachment M obj = some read)
      (l.map attachmentObject) (l.map some) := by
    rw [List.forall₂_map_left_iff, List.forall₂_map_right_iff, List.forall₂_same]
    intro a _
    rw [attachmentObject, wireAttachment, hM.asString, Option.map_some]
  obtain ⟨hconv, hrec⟩ := Proc.converted_of_forall₂ hread
  refine ⟨hconv, ?_⟩
  rw [receivedAttachments, elemsOf, hrec]
  simp [List.flatMap_map]

/-! ### The frame -/

variable {μ : Type} [UnorderedMap μ ParameterKey ParameterValue]

/-- The frame `r` shows everything that `f` shows. -/
structure Restores (same : Double → Double → Prop) (f r : MessageFrame μ) : Prop where
  header : r.header = f.header
  attachments : r.attachments = f.attachments
  size : r.parametersSize = f.parametersSize
  find (device param : ByteString) : ∃ v w, f.find device param = .ok v ∧
    r.find device param = .ok w ∧ Option.Rel (ParameterValue.SameValue same) v w
  findFlat (flatKey : FlatKey) : ∃ v w, f.findFlat flatKey = .ok v ∧
    r.findFlat flatKey = .ok w ∧ Option.Rel (ParameterValue.SameValue same) v w
  iterate : ∃ l, r.visits.Perm l ∧
    List.Forall₂ (fun e e' => e'.1 = e.1 ∧ ParameterValue.SameValue same e.2 e'.2) f.visits l ∧
    (f.visits.length ≤ smallCapacity → r.visits = l)

variable [LawfulUnorderedMap μ] {M : Codec} {same : Double → Double → Prop}

/-- What a receiver holds of a frame: its header, its attachments, and the entries of the list
`l`, which are the same as those of the frame. -/
structure Holds (same : Double → Double → Prop) (f r : MessageFrame μ)
    (l : List (ParameterKey × ParameterValue)) : Prop where
  inv : r.parameters.Inv
  header : r.header = f.header
  attachments : r.attachments = f.attachments
  entries : List.Forall₂ (SameEntry same) f.parameters.entries l
  perm : r.parameters.entries.Perm l
  order : f.parameters.entries.length ≤ smallCapacity → r.parameters.entries = l
  lookup (k : ParameterKey) : r.parameters.entries.lookup k = l.lookup k

omit [LawfulUnorderedMap μ] in
/-- An encoding has at least one byte: behind an empty one, every object would be read. -/
theorem length_ne_zero (hM : M.Lawful same) {bytes : ByteString} {elems : List Object}
    (h : M.Decodes bytes (.array elems)) : bytes.length ≠ 0 := by
  intro hzero
  obtain rfl := List.length_eq_zero_iff.mp hzero
  have hread := (h M.packNil).symm.trans (List.append_nil M.packNil ▸ hM.nil [])
  cases hread

omit [UnorderedMap μ ParameterKey ParameterValue] [LawfulUnorderedMap μ] in
/-- What stands behind the root object is left over. -/
theorem sections_append (hM : M.Lawful same) {bytes : ByteString} {h p a : Object}
    (hdec : M.Decodes bytes (.array [h, p, a])) (extra : ByteString) :
    sections M (some (bytes ++ extra)) = some (h, p, a) := by
  have hne : (bytes ++ extra).length ≠ 0 := by
    have hbytes := length_ne_zero hM hdec
    rw [List.length_append]
    omega
  have hunpack : M.unpack (bytes ++ extra) = some (.array [h, p, a]) := by
    rw [Codec.unpack, hdec extra, Option.map_some]
  simp only [sections, if_neg hne, hunpack]

/-- **Sections that convert** are accepted by every receiver. -/
theorem deserialize_of_decodes (hM : M.Lawful same) {bytes : ByteString} {h p a : Object}
    (hdec : M.Decodes bytes (.array [h, p, a])) (hh : MessageHeader.convertible M h = true)
    (hp : HybridMessageMap.convertible M p = true) (ha : attachmentsConvertible M a = true)
    (extra : ByteString) (r : MessageFrame μ) :
    ∃ r', deserialize M (some (bytes ++ extra)) r = .returned true r' ∧
      r'.header = MessageHeader.received M h r.header ∧
      HybridMessageMap.Unpacked M p r.parameters r'.parameters ∧
      r'.attachments = receivedAttachments M a := by
  have hs := sections_append hM hdec extra
  obtain ⟨ok, r', hdes, hd⟩ := deserialize_spec M (some (bytes ++ extra)) r
  have hok : ok = true := by
    rw [hd.ok_eq]
    simp only [accepts, hs, hh, hp, ha, Bool.and_self]
  subst hok
  exact ⟨r', hdes, hd.of_sections hs⟩

/-- **From frame to frame**: what a valid frame that fits has serialized is accepted by every
receiver, which then holds what the frame holds. -/
theorem serialize_deserialize (hM : M.Lawful same) {f : MessageFrame μ} (h : f.parameters.Inv)
    (hfit : FitsWire f) (r : MessageFrame μ) :
    ∃ bytes pairs r' l, (∀ buffer, f.serialize M buffer = .returned () bytes) ∧
      M.Decodes bytes (.array [.array f.header.fieldObjects, .map pairs,
        .array (f.attachments.map attachmentObject)]) ∧
      List.Forall₂ (HybridMessageMap.PairOf M same) f.parameters.entries pairs ∧
      deserialize M (some bytes) r = .returned true r' ∧ Holds same f r' l := by
  obtain ⟨bytes, pairs, hser, hdec, hpairs⟩ := serialize_packs hM h hfit
  obtain ⟨hheaderConv, hheader⟩ := MessageHeader.received_fieldObjects hM f.header r.header
  obtain ⟨hconv, hsame⟩ := HybridMessageMap.received_pairs hM hpairs
  obtain ⟨hattachConv, hattach⟩ := receivedAttachments_packed hM f.attachments
  obtain ⟨r', hdes, hheader', hu, hattach'⟩ :=
    deserialize_of_decodes hM hdec hheaderConv hconv hattachConv [] r
  rw [List.append_nil] at hdes
  obtain ⟨hperm, horder⟩ := hu.perm_received h hpairs.length_eq.symm hsame
  exact ⟨bytes, pairs, r', _, hser, hdec, hpairs, hdes, hu.inv, hheader'.trans hheader,
    hattach'.trans hattach, hsame, hperm, horder, hu.lookup⟩

/-- What a receiver holds is what it shows. -/
theorem Holds.restores {f r : MessageFrame μ} {l : List (ParameterKey × ParameterValue)}
    (hr : Holds same f r l) (h : f.parameters.Inv) : Restores same f r := by
  have hlookup : ∀ k, Option.Rel (ParameterValue.SameValue same)
      (f.parameters.entries.lookup k) (r.parameters.entries.lookup k) := by
    intro k
    rw [hr.lookup]
    exact HybridMessageMap.lookup_rel hr.entries k
  refine ⟨hr.header, hr.attachments, ?_, fun device param => ?_, fun flatKey => ?_,
    l.map HybridMessageMap.visit, ?_, ?_, ?_⟩
  · rw [parametersSize, parametersSize, HybridMessageMap.size_eq hr.inv,
      HybridMessageMap.size_eq h, hr.perm.length_eq, hr.entries.length_eq]
  · exact ⟨_, _, HybridMessageMap.find_eq h device param,
      HybridMessageMap.find_eq hr.inv device param, hlookup _⟩
  · exact ⟨_, _, HybridMessageMap.findFlat_eq h flatKey,
      HybridMessageMap.findFlat_eq hr.inv flatKey, hlookup _⟩
  · rw [visits_parameters, HybridMessageMap.visits_eq]
    exact hr.perm.map _
  · rw [visits_parameters, HybridMessageMap.visits_eq, List.forall₂_map_left_iff,
      List.forall₂_map_right_iff]
    exact hr.entries.imp fun e e' he => ⟨congrArg ParameterKey.fullKey he.1, he.2⟩
  · rw [visits_parameters, visits_parameters, HybridMessageMap.visits_eq,
      HybridMessageMap.visits_eq, List.length_map]
    exact fun hsmall => by rw [hr.order hsmall]

/-- **Frame round trip.** With any lawful MessagePack library, every frame a client can build
whose counts and lengths fit the wire is serialized into a buffer that every frame accepts,
whatever its history, and the receiver then shows what the sender shows: the header, the
attachments, the size, every lookup, and the visited entries, in the order of the sender if the
vector takes them. -/
theorem round_trip (hM : M.Lawful same) {f : MessageFrame μ} (hf : Reachable M f)
    (hfit : FitsWire f) (r : MessageFrame μ) (buffer : ByteString) :
    ∃ bytes r', f.serialize M buffer = .returned () bytes ∧
      deserialize M (some bytes) r = .returned true r' ∧ Restores same f r' := by
  obtain ⟨bytes, pairs, r', l, hser, -, -, hdes, hholds⟩ :=
    serialize_deserialize hM hf.inv hfit r
  exact ⟨bytes, r', hser buffer, hdes, hholds.restores hf.inv⟩

/-- A frame with a negative message identifier, a parameter that was added twice and an
attachment, and a receiver that was primed for map mode. -/
theorem round_trip_duplicate :
    ∃ (f : MessageFrame (ListMap ParameterKey ParameterValue)) (bytes : ByteString)
      (r' : MessageFrame (ListMap ParameterKey ParameterValue)),
      Proc.execAll (FrameCall.exec Wire.codec)
        [.header (.setMessageId (-1)), .parameters (.add [97] [98] (.lvalue (.int64 (-5)))),
          .parameters (.add [97] [98] (.lvalue (.string [0xff]))), .addAttachment [99] [1, 2]]
        (construct { timestamp := 7 } {}) =
          .ok ([some .void, some .void, some .void, some .void], f) ∧
      f.serialize Wire.codec [] = .returned () bytes ∧
      deserialize Wire.codec (some bytes) (construct { timestamp := 8 } { initialReserve := 200 }) =
        .returned true r' ∧ Restores Eq f r' := by
  have hreach : Reachable Wire.codec (⟨{ timestamp := 7, messageId := -1 }, ⟨true,
      [(⟨[97, 0x1F, 98]⟩, .int64 (-5)), (⟨[97, 0x1F, 98]⟩, .string [0xff])], {}, none⟩,
      [⟨[99], [1, 2]⟩]⟩ : MessageFrame (ListMap ParameterKey ParameterValue)) :=
    .call (.addAttachment [99] [1, 2]) (.call (.parameters (.add [97] [98]
      (.lvalue (.string [0xff])))) (.call (.parameters (.add [97] [98] (.lvalue (.int64 (-5)))))
      (.call (.header (.setMessageId (-1))) (.construct 7 {}) rfl) rfl) rfl) rfl
  have hkey : ∀ key val, (key, val) ∈ [(([97, 0x1F, 98] : ByteString), ParameterValue.int64 (-5)),
      ([97, 0x1F, 98], .string [0xff])] → key.length < 2 ^ 32 := by
    intro key val hmem
    simp only [List.mem_cons, List.not_mem_nil, Prod.mk.injEq, or_false] at hmem
    rcases hmem with ⟨rfl, -⟩ | ⟨rfl, -⟩ <;> decide
  have hstring : ∀ key s, (key, ParameterValue.string s) ∈
      [(([97, 0x1F, 98] : ByteString), ParameterValue.int64 (-5)),
      ([97, 0x1F, 98], .string [0xff])] → s.length < 2 ^ 32 := by
    intro key s hmem
    simp only [List.mem_cons, List.not_mem_nil, Prod.mk.injEq, or_false, reduceCtorEq, and_false,
      false_or, ParameterValue.string.injEq] at hmem
    rw [hmem.2]
    decide
  obtain ⟨bytes, r', hser, hdes, hrest⟩ := round_trip Wire.lawful hreach
    ⟨by decide, hkey, hstring, by decide, by simp, by simp⟩
    (construct { timestamp := 8 } { initialReserve := 200 }) []
  exact ⟨_, bytes, r', rfl, hser, hdes, hrest⟩

end MessageFrame

end MsgFrame
