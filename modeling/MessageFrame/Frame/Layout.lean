import Mathlib.Data.List.Forall2
import MessageFrame.Frame.Calls
import MessageFrame.MessagePack.Packs

/-!
# The layout of a serialized frame

Each pack routine is shown to pack an object of a known shape (`Packs`): a value is a pair of its
tag and its payload (`Tagged`), a header an array of its eight fields, the parameters a map from
the flat keys to tagged values in the order of traversal, the attachments an array of pairs.
`serialize_packs` puts the three sections together.

Array and map headers announce a count, and the elements are written independently of it,
sometimes by another function; the rules of `Packs` are where the two are compared.
-/

namespace MsgFrame

open Msgpack AssocList

/-! ### Values and header -/

section Values

variable {M : Codec} {same : Double → Double → Prop}

/-- The object of a value: an array of the tag and the payload. A double is whatever number the
library writes for it, and reads back as a double that is the `same`. -/
inductive ParameterValue.Tagged (M : Codec) (same : Double → Double → Prop) :
    ParameterValue → Object → Prop
  | unknown : Tagged M same .unknown (.array [.positiveInteger 0, .nil])
  | int64 (n : Int64) : Tagged M same (.int64 n) (.array [.positiveInteger 10, .integer n])
  | double {d d' : Double} {number : Object} : M.asDouble number = some d' → same d d' →
    Tagged M same (.double d) (.array [.positiveInteger 20, number])
  | string (s : ByteString) : Tagged M same (.string s) (.array [.positiveInteger 30, .str s])
  | bool (b : Bool) : Tagged M same (.bool b) (.array [.positiveInteger 40, .boolean b])

theorem ParameterValue.Tagged.eq_pair {v : ParameterValue} {obj : Object}
    (h : Tagged M same v obj) : ∃ tag payload, obj = .array [tag, payload] := by
  cases h <;> exact ⟨_, _, rfl⟩

/-- A tagged payload, as an array of two. -/
private theorem packs_tagged (hM : M.Lawful same) (t : ValueType)
    {x : Proc ByteString Unit} {payload : Object} (hx : Packs M x payload) :
    Packs M (do
      write (M.packArray 2)
      write (M.packUInt8 t.raw)
      x) (.array [.positiveInteger t.raw.toUInt64, payload]) := by
  have h := packs_array hM (l := [write (M.packUInt8 t.raw), x])
    (.cons (packs_append (hM.uint8 t.raw)) (.cons hx .nil)) (by decide : 2 < 2 ^ 32)
  simp only [Proc.forEach_cons, Proc.bind_forEach_nil] at h
  exact h

/-- **Values** are packed with their tags. -/
theorem ParameterValue.packs (hM : M.Lawful same) (v : ParameterValue)
    (hv : ∀ s, v = .string s → s.length < 2 ^ 32) :
    ∃ obj, Packs M (v.pack M) obj ∧ Tagged M same v obj := by
  cases v with
  | unknown => exact ⟨_, packs_tagged hM .unknown (packs_append hM.nil), .unknown⟩
  | int64 n => exact ⟨_, packs_tagged hM .int64 (packs_append (hM.int64 n)), .int64 n⟩
  | double d =>
    obtain ⟨obj, d', hdec, has, hsame⟩ := hM.double d
    exact ⟨_, packs_tagged hM .double (packs_append hdec), .double has hsame⟩
  | string s => exact ⟨_, packs_tagged hM .string (packs_string hM (hv s rfl)), .string s⟩
  | bool b => exact ⟨_, packs_tagged hM .bool (packs_append (hM.bool b)), .bool b⟩

/-- The elements of a packed header. -/
def MessageHeader.fieldObjects (h : MessageHeader) : List Object :=
  [.positiveInteger h.timestamp, .positiveInteger h.messageCnt,
    .positiveInteger h.sourceId.toUInt64, .positiveInteger h.targetId.toUInt64,
    .integer h.messageId.toInt64, .integer h.messageType.toInt64,
    .positiveInteger h.version.toUInt64, .positiveInteger h.flags.toUInt64]

/-- **Header**: all eight fields are packed. -/
theorem MessageHeader.packs (hM : M.Lawful same) (h : MessageHeader) :
    Packs M (h.pack M) (.array h.fieldObjects) := by
  have hpacks := packs_array hM (l := [write (M.packUInt64 h.timestamp),
    write (M.packUInt64 h.messageCnt), write (M.packUInt32 h.sourceId),
    write (M.packUInt32 h.targetId), write (M.packInt32 h.messageId),
    write (M.packInt32 h.messageType), write (M.packUInt16 h.version),
    write (M.packUInt16 h.flags)]) (r := h.fieldObjects)
    (.cons (packs_append (hM.uint64 _)) <| .cons (packs_append (hM.uint64 _)) <|
      .cons (packs_append (hM.uint32 _)) <| .cons (packs_append (hM.uint32 _)) <|
      .cons (packs_append (hM.int32 _)) <| .cons (packs_append (hM.int32 _)) <|
      .cons (packs_append (hM.uint16 _)) <| .cons (packs_append (hM.uint16 _)) .nil)
    (by decide : 8 < 2 ^ 32)
  simp only [Proc.forEach_cons, Proc.bind_forEach_nil] at hpacks
  exact hpacks

end Values

/-! ### Parameters -/

namespace HybridMessageMap

variable {M : Codec} {same : Double → Double → Prop}

/-- The lengths of an entry fit the wire. -/
def FitsEntry (e : ParameterKey × ParameterValue) : Prop :=
  e.1.fullKey.length < 2 ^ 32 ∧ ∀ s, e.2 = .string s → s.length < 2 ^ 32

/-- The pair of an entry: the flat key, and the tagged value that is packed. -/
structure PairOf (M : Codec) (same : Double → Double → Prop) (e : ParameterKey × ParameterValue)
    (pair : Object × Object) : Prop where
  key : pair.1 = .str e.1.fullKey
  packed : Packs M (e.2.pack M) pair.2
  tagged : ParameterValue.Tagged M same e.2 pair.2

/-- The key of an entry. -/
def packKey (M : Codec) (e : ParameterKey × ParameterValue) : Proc ByteString Unit :=
  Proc.orThrow (M.packString e.1.fullKey) >>= fun bytes => write bytes

/-- A round of the loop of `pack` packs the key and then the value. -/
theorem packEntry_eq (M : Codec) (e : ParameterKey × ParameterValue) :
    packEntry M e = packKey M e >>= fun _ => e.2.pack M := by
  rw [packKey, Proc.bind_block]
  rfl

/-- The pairs of a whole list of entries. -/
private theorem entries_pack (hM : M.Lawful same) {l : List (ParameterKey × ParameterValue)}
    (hl : ∀ e ∈ l, FitsEntry e) : ∃ pairs,
      List.Forall₂ (fun x pair => Packs M x.1 pair.1 ∧ Packs M x.2 pair.2)
        (l.map fun e => (packKey M e, e.2.pack M)) pairs ∧
      List.Forall₂ (PairOf M same) l pairs := by
  induction l with
  | nil => exact ⟨[], .nil, .nil⟩
  | cons e l ih =>
    obtain ⟨hkey, hstring⟩ := hl e List.mem_cons_self
    obtain ⟨obj, hpack, htagged⟩ := e.2.packs hM hstring
    obtain ⟨pairs, hpacks, hpairs⟩ := ih fun d hd => hl d (List.mem_cons_of_mem e hd)
    exact ⟨(.str e.1.fullKey, obj) :: pairs, .cons ⟨packs_string hM hkey, hpack⟩ hpacks,
      .cons ⟨rfl, hpack, htagged⟩ hpairs⟩

/-- **Parameters**: a list of entries is packed as a map, pair by pair, in its order. -/
theorem packs_entries (hM : M.Lawful same) {l : List (ParameterKey × ParameterValue)}
    (hlen : l.length < 2 ^ 32) (hfit : ∀ e ∈ l, FitsEntry e) :
    ∃ pairs, Packs M (do
        write (M.packMap l.length.toUInt32)
        Proc.forEach (packEntry M) l) (.map pairs) ∧
      List.Forall₂ (PairOf M same) l pairs := by
  obtain ⟨pairs, hpacks, hpairs⟩ := entries_pack hM hfit
  refine ⟨pairs, ?_, hpairs⟩
  have hmap := packs_map hM hpacks (by rwa [List.length_map])
  rw [Proc.forEach_map, List.length_map] at hmap
  rw [funext (packEntry_eq M)]
  exact hmap

end HybridMessageMap

/-! ### Attachments -/

namespace MessageFrame

/-- The object of an attachment: its name and its bytes. -/
def attachmentObject (a : Attachment) : Object := .array [.str a.name, .bin a.rawData]

/-- **Attachments**: name and data are packed as a pair. -/
theorem packAttachment_packs {M : Codec} {same : Double → Double → Prop}
    (hM : M.Lawful same) {a : Attachment} (hname : a.name.length < 2 ^ 32)
    (hdata : a.rawData.length < 2 ^ 32) : Packs M (packAttachment M a) (attachmentObject a) := by
  have h := packs_array hM
    (.cons (packs_string hM hname) (.cons (packs_bin hM hdata) .nil)) (by decide : 2 < 2 ^ 32)
  simp only [Proc.forEach_cons, Proc.bind_forEach_nil, Proc.bind_block] at h
  exact h

/-! ### The frame -/

variable {μ : Type} [UnorderedMap μ ParameterKey ParameterValue]

/-- All counts and lengths of the frame are below `2 ^ 32`. -/
structure FitsWire (f : MessageFrame μ) : Prop where
  count : f.visits.length < 2 ^ 32
  key : ∀ key val, (key, val) ∈ f.visits → key.length < 2 ^ 32
  string : ∀ key s, (key, ParameterValue.string s) ∈ f.visits → s.length < 2 ^ 32
  attachmentCount : f.attachments.length < 2 ^ 32
  name : ∀ a ∈ f.attachments, a.name.length < 2 ^ 32
  data : ∀ a ∈ f.attachments, a.rawData.length < 2 ^ 32

theorem mem_visits {f : MessageFrame μ} {key : ByteString} {val : ParameterValue} :
    (key, val) ∈ f.visits ↔ (⟨key⟩, val) ∈ f.parameters.entries := by
  rw [visits_parameters, HybridMessageMap.mem_visits]

/-- The counts and lengths of the entries, behind those of the visited pairs. -/
theorem FitsWire.entries {f : MessageFrame μ} (h : FitsWire f) :
    f.parameters.entries.length < 2 ^ 32 ∧
      ∀ e ∈ f.parameters.entries, HybridMessageMap.FitsEntry e := by
  constructor
  · have hc := h.count
    rwa [visits_parameters, HybridMessageMap.visits_eq, List.length_map] at hc
  · rintro ⟨⟨key⟩, v⟩ he
    refine ⟨h.key key v (mem_visits.mpr he), fun s hs => h.string key s (mem_visits.mpr ?_)⟩
    rw [← hs]
    exact he

theorem FitsWire.of_entries {f : MessageFrame μ} (hcount : f.parameters.entries.length < 2 ^ 32)
    (hentries : ∀ e ∈ f.parameters.entries, HybridMessageMap.FitsEntry e)
    (hattach : f.attachments.length < 2 ^ 32)
    (hsizes : ∀ a ∈ f.attachments, a.name.length < 2 ^ 32 ∧ a.rawData.length < 2 ^ 32) :
    FitsWire f where
  count := by rwa [visits_parameters, HybridMessageMap.visits_eq, List.length_map]
  key key val hmem := (hentries _ (mem_visits.mp hmem)).1
  string key s hmem := (hentries _ (mem_visits.mp hmem)).2 s rfl
  attachmentCount := hattach
  name a ha := (hsizes a ha).1
  data a ha := (hsizes a ha).2

/-- **Serialization** clears the buffer and packs the three sections. -/
theorem serialize_eq (M : Codec) (f : MessageFrame μ) (buffer : ByteString) :
    f.serialize M buffer = (do
      write (M.packArray 3)
      f.header.pack M
      f.parameters.pack M
      (do
        write (M.packArray f.attachments.length.toUInt32)
        Proc.forEach (packAttachment M) f.attachments) : Proc ByteString Unit) [] := rfl

variable [LawfulUnorderedMap μ] {M : Codec} {same : Double → Double → Prop}

/-- **Sections**: whatever the buffer holds, a valid frame that fits leaves the encoding of one
array in it: the header, a map of the parameters and an array of the attachments. -/
theorem serialize_packs (hM : M.Lawful same) {f : MessageFrame μ}
    (h : f.parameters.Inv) (hfit : FitsWire f) :
    ∃ bytes pairs, (∀ buffer, f.serialize M buffer = .returned () bytes) ∧
      M.Decodes bytes (.array [.array f.header.fieldObjects, .map pairs,
        .array (f.attachments.map attachmentObject)]) ∧
      List.Forall₂ (HybridMessageMap.PairOf M same) f.parameters.entries pairs := by
  obtain ⟨hcount, hentries⟩ := hfit.entries
  obtain ⟨pairs, hparams, hpairs⟩ := HybridMessageMap.packs_entries hM hcount hentries
  rw [← HybridMessageMap.pack_eq h] at hparams
  have hattach := packs_array hM (l := f.attachments.map (packAttachment M))
    (r := f.attachments.map attachmentObject)
    (by
      rw [List.forall₂_map_left_iff, List.forall₂_map_right_iff, List.forall₂_same]
      exact fun a ha => packAttachment_packs hM (hfit.name a ha) (hfit.data a ha))
    (by rw [List.length_map]; exact hfit.attachmentCount)
  rw [Proc.forEach_map, List.length_map] at hattach
  have hroot := packs_array hM (.cons (f.header.packs hM) (.cons hparams (.cons hattach .nil)))
    (by decide : 3 < 2 ^ 32)
  simp only [Proc.forEach_cons, Proc.bind_forEach_nil] at hroot
  obtain ⟨bytes, hdec, hrun⟩ := hroot
  refine ⟨bytes, pairs, fun buffer => ?_, hdec, hpairs⟩
  rw [serialize_eq]
  exact hrun []

end MessageFrame

end MsgFrame
