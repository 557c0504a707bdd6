import MessageFrame.Frame.RoundTrip

/-!
# Counts and lengths beyond 32 bits

`serialize` passes the number of parameters, the number of attachments and the length of an
attachment to packer functions that take 32 bits, and nothing checks them on the way. A string,
in contrast, is packed by the library from the object itself, and one that is too long throws.

The damage is consistent, so that the buffer is well formed. An attachment is written as its
first bytes (`narrowAttachment`). A list of too many attachments is written behind the header of
a shorter array, and a reader leaves the rest of them over: to it the buffer is that of the
narrowed frame (`serialize_narrow`). Too many parameters are written behind the header of a
shorter map, and a reader takes the key of the first entry that is left for the third section.
`narrowing_iff` puts the cases together: an oversized frame is never serialized into what stands
for it, and only a string that is too long keeps it from being serialized at all.
-/

namespace MsgFrame

open Msgpack AssocList

variable {M : Codec} {same : Double → Double → Prop}

/-- An entry that fits the wire is packed. -/
theorem HybridMessageMap.packEntry_appends (hM : M.Lawful same)
    {e : ParameterKey × ParameterValue} (he : FitsEntry e) : Appends (packEntry M e) := by
  obtain ⟨obj, hpack, -⟩ := e.2.packs hM he.2
  rw [packEntry_eq]
  exact (packs_string hM he.1).appends.bind hpack.appends

namespace MessageFrame

/-- What is written of an attachment: as many bytes as the narrowed length says. -/
def narrowAttachment (a : Attachment) : Attachment :=
  { a with rawData := a.rawData.take (a.rawData.length % 2 ^ 32) }

/-- An attachment and what is written of it are packed in the same way. -/
theorem packAttachment_narrow
    (hbody : ∀ (b : ByteString) (n : UInt32), n.toNat ≤ b.length →
      M.packBinBody b n = b.take n.toNat) (a : Attachment) :
    packAttachment M (narrowAttachment a) = packAttachment M a := by
  have hle : a.rawData.length % 2 ^ 32 ≤ a.rawData.length := Nat.mod_le _ _
  have hlen : (narrowAttachment a).rawData.length = a.rawData.length % 2 ^ 32 := by
    rw [narrowAttachment, List.length_take, Nat.min_eq_left hle]
  have hcount : (a.rawData.length % 2 ^ 32).toUInt32 = a.rawData.length.toUInt32 :=
    UInt32.ofNat_mod_size
  have htoNat : a.rawData.length.toUInt32.toNat = a.rawData.length % 2 ^ 32 :=
    UInt32.toNat_ofNat'
  have hwrite : M.packBinBody (narrowAttachment a).rawData a.rawData.length.toUInt32 =
      M.packBinBody a.rawData a.rawData.length.toUInt32 := by
    rw [hbody _ _ (by rw [htoNat, hlen]), hbody _ _ (by rw [htoNat]; exact hle), htoNat,
      narrowAttachment, List.take_take, Nat.min_self]
  unfold packAttachment
  rw [hlen, hcount, hwrite]
  rfl

variable {μ : Type} [UnorderedMap μ ParameterKey ParameterValue]

/-- The frame that stands in a buffer with the narrowed counts and lengths of the attachments. -/
def narrow (f : MessageFrame μ) : MessageFrame μ :=
  { f with attachments :=
      (f.attachments.take (f.attachments.length % 2 ^ 32)).map narrowAttachment }

/-- **Attachments**: a frame is serialized as the narrowed frame, and then the attachments that
the narrowed count leaves over. -/
theorem serialize_narrow
    (hbody : ∀ (b : ByteString) (n : UInt32), n.toNat ≤ b.length →
      M.packBinBody b n = b.take n.toNat) (f : MessageFrame μ) :
    f.serialize M = (narrow f).serialize M >>= fun _ =>
      Proc.forEach (packAttachment M) (f.attachments.drop (f.attachments.length % 2 ^ 32)) := by
  have hlen : (narrow f).attachments.length = f.attachments.length % 2 ^ 32 := by
    rw [narrow, List.length_map, List.length_take, Nat.min_eq_left (Nat.mod_le _ _)]
  have hcount : (f.attachments.length % 2 ^ 32).toUInt32 = f.attachments.length.toUInt32 :=
    UInt32.ofNat_mod_size
  have hloop : Proc.forEach (packAttachment M) (narrow f).attachments =
      Proc.forEach (packAttachment M) (f.attachments.take (f.attachments.length % 2 ^ 32)) := by
    rw [narrow, Proc.forEach_map, funext (packAttachment_narrow hbody)]
  unfold serialize
  rw [hlen, hcount, hloop]
  simp only [Proc.bind_block]
  rw [← Proc.forEach_append, List.take_append_drop]
  rfl

/-- A count or a length of the frame does not fit 32 bits. -/
def Oversized (f : MessageFrame μ) : Prop :=
  2 ^ 32 ≤ f.visits.length ∨ 2 ^ 32 ≤ f.attachments.length ∨
    ∃ a ∈ f.attachments, 2 ^ 32 ≤ a.rawData.length

/-- A parameter key, a string value or the name of an attachment does not fit 32 bits. -/
def HasLongString (f : MessageFrame μ) : Prop :=
  (∃ key val, (key, val) ∈ f.visits ∧
    (2 ^ 32 ≤ key.length ∨ ∃ s, val = .string s ∧ 2 ^ 32 ≤ s.length)) ∨
  ∃ a ∈ f.attachments, 2 ^ 32 ≤ a.name.length

omit [UnorderedMap μ ParameterKey ParameterValue] in
/-- The narrowed frame is another one, if it is the attachments that are too many or too long. -/
theorem narrow_attachments_ne {f : MessageFrame μ}
    (hbig : 2 ^ 32 ≤ f.attachments.length ∨ ∃ a ∈ f.attachments, 2 ^ 32 ≤ a.rawData.length) :
    (narrow f).attachments ≠ f.attachments := by
  intro heq
  rcases Nat.lt_or_ge f.attachments.length (2 ^ 32) with hsmall | hlarge
  · obtain ⟨a, ha, hlen⟩ := hbig.resolve_left (Nat.not_le.mpr hsmall)
    rw [narrow, Nat.mod_eq_of_lt hsmall, List.take_length] at heq
    have hsame : narrowAttachment a = a :=
      List.map_inj_left.mp (heq.trans (List.map_id _).symm) a ha
    have hlen' := congrArg (fun a => a.rawData.length) hsame
    have hlt := Nat.mod_lt a.rawData.length (by decide : 2 ^ 32 > 0)
    simp only [narrowAttachment, List.length_take] at hlen'
    omega
  · have hlen := congrArg List.length heq
    have hlt := Nat.mod_lt f.attachments.length (by decide : 2 ^ 32 > 0)
    rw [narrow, List.length_map, List.length_take] at hlen
    omega

/-! ### Strings that are too long -/

/-- **A string that is too long** makes serialization throw. -/
theorem serialize_neverReturns (hstring : ∀ s : ByteString, 2 ^ 32 ≤ s.length →
    M.packString s = none) {f : MessageFrame μ} (h : f.parameters.Inv) [LawfulUnorderedMap μ]
    (hlong : HasLongString f) : (f.serialize M).NeverReturns := by
  have hthrow : ∀ {s : ByteString}, 2 ^ 32 ≤ s.length →
      (Proc.orThrow (M.packString s) : Proc ByteString ByteString).NeverReturns := by
    intro s hs
    rw [hstring s hs]
    exact .throw
  unfold serialize
  refine .of_rest _ fun _ => .of_rest _ fun _ => .of_rest _ fun _ => ?_
  rcases hlong with ⟨key, val, hmem, hlong⟩ | ⟨a, ha, hname⟩
  · refine .bind ?_ _
    rw [HybridMessageMap.pack_eq h]
    refine .of_rest _ fun _ => .forEach (mem_visits.mp hmem) ?_
    rcases hlong with hkey | ⟨s, rfl, hs⟩
    · exact (hthrow hkey).bind _
    · exact .of_rest _ fun _ => .of_rest _ fun _ => .of_rest _ fun _ => .of_rest _ fun _ =>
        (hthrow hs).bind _
  · refine .of_rest _ fun _ => .of_rest _ fun _ => .forEach ha ?_
    exact .of_rest _ fun _ => (hthrow hname).bind _

/-! ### What the receiver makes of it -/

variable [LawfulUnorderedMap μ]

omit [UnorderedMap μ ParameterKey ParameterValue] [LawfulUnorderedMap μ] in
/-- An attachment is packed whatever its length. -/
theorem packAttachment_appends (hM : M.Lawful same)
    (hbody : ∀ (b : ByteString) (n : UInt32), n.toNat ≤ b.length →
      M.packBinBody b n = b.take n.toNat) {a : Attachment} (hname : a.name.length < 2 ^ 32) :
    Appends (packAttachment M a) := by
  rw [← packAttachment_narrow hbody]
  refine (packAttachment_packs hM (a := narrowAttachment a) hname ?_).appends
  rw [narrowAttachment, List.length_take]
  exact Nat.lt_of_le_of_lt (Nat.min_le_left _ _) (Nat.mod_lt _ (by decide))

/-- **Too many or too long attachments**: the buffer is accepted, with other attachments. -/
theorem narrowed_attachments (hM : M.Lawful same)
    (hbody : ∀ (b : ByteString) (n : UInt32), n.toNat ≤ b.length →
      M.packBinBody b n = b.take n.toNat) {f : MessageFrame μ} (h : f.parameters.Inv)
    (hlong : ¬HasLongString f) (hcount : f.visits.length < 2 ^ 32) (buffer : ByteString)
    (r : MessageFrame μ) : ∃ bytes r', f.serialize M buffer = .returned () bytes ∧
      deserialize M (some bytes) r = .returned true r' ∧
      r'.attachments = (narrow f).attachments := by
  have hname : ∀ a ∈ f.attachments, a.name.length < 2 ^ 32 := fun a ha =>
    Nat.lt_of_not_le fun hle => hlong (.inr ⟨a, ha, hle⟩)
  have hfit : FitsWire (narrow f) := by
    refine ⟨hcount, fun key val hmem => ?_, fun key s hmem => ?_, ?_, fun a ha => ?_,
      fun a ha => ?_⟩
    · exact Nat.lt_of_not_le fun hle => hlong (.inl ⟨key, val, hmem, .inl hle⟩)
    · exact Nat.lt_of_not_le fun hle => hlong (.inl ⟨key, _, hmem, .inr ⟨s, rfl, hle⟩⟩)
    · rw [narrow, List.length_map, List.length_take]
      exact Nat.lt_of_le_of_lt (Nat.min_le_left _ _) (Nat.mod_lt _ (by decide))
    · obtain ⟨b, hb, rfl⟩ := List.mem_map.mp ha
      exact hname b (List.mem_of_mem_take hb)
    · obtain ⟨b, -, rfl⟩ := List.mem_map.mp ha
      rw [narrowAttachment, List.length_take]
      exact Nat.lt_of_le_of_lt (Nat.min_le_left _ _) (Nat.mod_lt _ (by decide))
  -- the attachments left over are packed behind the narrowed frame
  obtain ⟨extra, hextra⟩ : Appends (Proc.forEach (packAttachment M)
      (f.attachments.drop (f.attachments.length % 2 ^ 32))) := by
    exact .forEach fun a ha => packAttachment_appends hM hbody (hname a (List.mem_of_mem_drop ha))
  obtain ⟨bytes, pairs, hser, hdec, hpairs⟩ := serialize_packs hM (f := narrow f) h hfit
  obtain ⟨hheaderConv, -⟩ := MessageHeader.received_fieldObjects hM f.header r.header
  obtain ⟨hconv, -⟩ := HybridMessageMap.received_pairs hM hpairs
  obtain ⟨hattachConv, hattach⟩ := receivedAttachments_packed hM (narrow f).attachments
  obtain ⟨r', hdes, -, -, hattach'⟩ :=
    deserialize_of_decodes hM hdec hheaderConv hconv hattachConv extra r
  refine ⟨bytes ++ extra, r', ?_, hdes, hattach'.trans hattach⟩
  rw [serialize_narrow hbody, Proc.bind_of_returned (hser buffer)]
  exact hextra bytes

/-- **Too many parameters**: the buffer is accepted, with fewer parameters. -/
theorem narrowed_parameters (hM : M.Lawful same)
    (hbody : ∀ (b : ByteString) (n : UInt32), n.toNat ≤ b.length →
      M.packBinBody b n = b.take n.toNat) {f : MessageFrame μ} (h : f.parameters.Inv)
    (hlong : ¬HasLongString f) (hcount : 2 ^ 32 ≤ f.visits.length) (buffer : ByteString)
    (r : MessageFrame μ) : ∃ bytes r', f.serialize M buffer = .returned () bytes ∧
      deserialize M (some bytes) r = .returned true r' ∧
      r'.parameters.entries.length < f.parameters.entries.length := by
  have hvisits : f.visits.length = f.parameters.entries.length := by
    rw [visits_parameters, HybridMessageMap.visits_eq, List.length_map]
  rw [hvisits] at hcount
  have hname : ∀ a ∈ f.attachments, a.name.length < 2 ^ 32 := fun a ha =>
    Nat.lt_of_not_le fun hle => hlong (.inr ⟨a, ha, hle⟩)
  have hentries : ∀ e ∈ f.parameters.entries, HybridMessageMap.FitsEntry e := by
    rintro ⟨⟨key⟩, v⟩ he
    refine ⟨Nat.lt_of_not_le fun hle => hlong (.inl ⟨key, v, mem_visits.mpr he, .inl hle⟩), ?_⟩
    exact fun s hs => Nat.lt_of_not_le fun hle =>
      hlong (.inl ⟨key, v, mem_visits.mpr he, .inr ⟨s, hs, hle⟩⟩)
  -- the entries that the narrowed count covers, and the first one behind them
  have hk : f.parameters.entries.length % 2 ^ 32 < f.parameters.entries.length :=
    Nat.lt_of_lt_of_le (Nat.mod_lt _ (by decide)) hcount
  have htake : (f.parameters.entries.take (f.parameters.entries.length % 2 ^ 32)).length =
      f.parameters.entries.length % 2 ^ 32 := by
    rw [List.length_take, Nat.min_eq_left (Nat.le_of_lt hk)]
  obtain ⟨e, rest, hdrop⟩ : ∃ e rest,
      f.parameters.entries.drop (f.parameters.entries.length % 2 ^ 32) = e :: rest :=
    ⟨_, _, List.drop_eq_getElem_cons hk⟩
  have hmem : ∀ d ∈ e :: rest, HybridMessageMap.FitsEntry d := by
    rw [← hdrop]
    exact fun d hd => hentries d (List.mem_of_mem_drop hd)
  obtain ⟨pairs, hmap, hpairs⟩ := HybridMessageMap.packs_entries hM
    (l := f.parameters.entries.take (f.parameters.entries.length % 2 ^ 32))
    (by rw [htake]; exact Nat.mod_lt _ (by decide))
    fun d hd => hentries d (List.mem_of_mem_take hd)
  have hkey : Packs M (HybridMessageMap.packKey M e) (.str e.1.fullKey) :=
    packs_string hM (hmem e List.mem_cons_self).1
  have hroot := packs_array hM (.cons (f.header.packs hM) (.cons hmap (.cons hkey .nil)))
    (by decide : 3 < 2 ^ 32)
  simp only [Proc.forEach_cons, Proc.bind_forEach_nil] at hroot
  have hvalue : Appends (e.2.pack M) := by
    obtain ⟨obj, hpack, -⟩ := e.2.packs hM (hmem e List.mem_cons_self).2
    exact hpack.appends
  have hrest : Appends (Proc.forEach (HybridMessageMap.packEntry M) rest) :=
    .forEach fun d hd => HybridMessageMap.packEntry_appends hM (hmem d (List.mem_cons_of_mem e hd))
  have hattach : Appends (write (M.packArray f.attachments.length.toUInt32) >>= fun _ =>
      Proc.forEach (packAttachment M) f.attachments) :=
    (Appends.modify _).bind (.forEach fun a ha => packAttachment_appends hM hbody (hname a ha))
  obtain ⟨bytes, extra, hdec, hrun⟩ := hroot.followed ((hvalue.bind hrest).bind hattach)
  -- the statements of `serialize`, regrouped
  have hloop : Proc.forEach (HybridMessageMap.packEntry M) f.parameters.entries =
      Proc.forEach (HybridMessageMap.packEntry M)
        (f.parameters.entries.take (f.parameters.entries.length % 2 ^ 32)) >>= fun _ =>
      (HybridMessageMap.packKey M e >>= fun _ => e.2.pack M) >>= fun _ =>
        Proc.forEach (HybridMessageMap.packEntry M) rest := by
    conv_lhs => rw [← List.take_append_drop (f.parameters.entries.length % 2 ^ 32)
      f.parameters.entries, Proc.forEach_append, hdrop, Proc.forEach_cons,
      HybridMessageMap.packEntry_eq]
  have hheader : M.packMap f.parameters.entries.length.toUInt32 = M.packMap
      (f.parameters.entries.take (f.parameters.entries.length % 2 ^ 32)).length.toUInt32 := by
    rw [htake]
    exact congrArg M.packMap UInt32.ofNat_mod_size.symm
  have hser : f.serialize M buffer = .returned () (bytes ++ extra) := by
    rw [serialize_eq, HybridMessageMap.pack_eq h, hheader, hloop]
    have hrun' := hrun []
    simp only [Proc.bind_block] at hrun' ⊢
    exact hrun'
  -- the key of the first entry behind the map is taken for the attachment section
  obtain ⟨hheaderConv, -⟩ := MessageHeader.received_fieldObjects hM f.header r.header
  obtain ⟨hconv, -⟩ := HybridMessageMap.received_pairs hM hpairs
  obtain ⟨r', hdes, -, hu, -⟩ := deserialize_of_decodes hM hdec hheaderConv hconv rfl extra r
  refine ⟨bytes ++ extra, r', hser, hdes, ?_⟩
  have hle := hu.length_le
  rw [HybridMessageMap.pairsOf, ← hpairs.length_eq, htake] at hle
  exact Nat.lt_of_le_of_lt hle hk

/-- **Narrowed counts and lengths.** Suppose that the library writes as much of a byte array as
the 32-bit length says, and throws when it packs a string of `2 ^ 32` bytes or more. A frame of
which the number of parameters, the number of attachments or the length of an attachment does not
fit 32 bits is serialized only into buffers that stand for it exactly if one of its keys, string
values or attachment names does not fit 32 bits either, so that it is not serialized at all. -/
theorem narrowing_iff (hM : M.Lawful same)
    (hbody : ∀ (b : ByteString) (n : UInt32), n.toNat ≤ b.length →
      M.packBinBody b n = b.take n.toNat)
    (hstring : ∀ s : ByteString, 2 ^ 32 ≤ s.length → M.packString s = none)
    {f : MessageFrame μ} (hf : Reachable M f) (hbig : Oversized f) :
    (∀ buffer bytes, f.serialize M buffer = .returned () bytes →
      ∀ r r', deserialize M (some bytes) r = .returned true r' → Restores same f r') ↔
      HasLongString f := by
  constructor
  · intro hall
    by_contra hlong
    rcases Nat.lt_or_ge f.visits.length (2 ^ 32) with hsmall | hlarge
    · obtain ⟨bytes, r', hser, hdes, hattach⟩ :=
        narrowed_attachments hM hbody hf.inv hlong hsmall [] f
      have hrest := hall [] bytes hser f r' hdes
      exact narrow_attachments_ne (hbig.resolve_left (Nat.not_le.mpr hsmall))
        (hattach.symm.trans hrest.attachments)
    · obtain ⟨bytes, r', hser, hdes, hlt⟩ :=
        narrowed_parameters hM hbody hf.inv hlong hlarge [] f
      have hrest := hall [] bytes hser f r' hdes
      obtain ⟨l, hperm, hsame, -⟩ := hrest.iterate
      have hlen := hperm.length_eq.trans hsame.length_eq.symm
      rw [visits_parameters, visits_parameters, HybridMessageMap.visits_eq,
        HybridMessageMap.visits_eq, List.length_map, List.length_map] at hlen
      exact Nat.ne_of_lt hlt hlen
  · intro hlong buffer bytes hser
    exact absurd hser (serialize_neverReturns hstring hf.inv hlong buffer () bytes)

/-- A new frame with one attachment. -/
private theorem reachable_attached (name data : ByteString) : Reachable Wire.codec
    (⟨{ timestamp := 0 }, HybridMessageMap.ofConfig {}, [⟨name, data⟩]⟩ :
      MessageFrame (ListMap ParameterKey ParameterValue)) :=
  .call (.addAttachment name data) (.construct 0 {}) rfl

private theorem wire_packBinBody (b : ByteString) (n : UInt32) (_ : n.toNat ≤ b.length) :
    Wire.codec.packBinBody b n = b.take n.toNat := rfl

private theorem wire_packString (s : ByteString) (h : 2 ^ 32 ≤ s.length) :
    Wire.codec.packString s = none := if_neg (Nat.not_lt.mpr h)

/-- Name and data of the attachment are both too long, and nothing is serialized. -/
theorem narrowing_iff_long_name :
    (∀ buffer bytes, serialize Wire.codec (⟨{ timestamp := 0 }, HybridMessageMap.ofConfig {},
        [⟨List.replicate (2 ^ 32) 97, List.replicate (2 ^ 32) 0⟩]⟩ :
          MessageFrame (ListMap ParameterKey ParameterValue)) buffer = .returned () bytes →
      ∀ r r', deserialize Wire.codec (some bytes) r = .returned true r' →
        Restores Eq (⟨{ timestamp := 0 }, HybridMessageMap.ofConfig {},
          [⟨List.replicate (2 ^ 32) 97, List.replicate (2 ^ 32) 0⟩]⟩ :
            MessageFrame (ListMap ParameterKey ParameterValue)) r') ↔
      HasLongString (⟨{ timestamp := 0 }, HybridMessageMap.ofConfig {},
        [⟨List.replicate (2 ^ 32) 97, List.replicate (2 ^ 32) 0⟩]⟩ :
          MessageFrame (ListMap ParameterKey ParameterValue)) := by
  refine narrowing_iff Wire.lawful wire_packBinBody wire_packString (reachable_attached _ _)
    (.inr (.inr ⟨_, List.mem_singleton_self _, ?_⟩))
  exact Nat.le_of_eq List.length_replicate.symm

/-- An attachment that is too long is written, and accepted, with other data. -/
private theorem narrowed_attachment (data : ByteString) (hdata : 2 ^ 32 ≤ data.length) :
    ∃ (bytes : ByteString) (r' : MessageFrame (ListMap ParameterKey ParameterValue)),
      serialize Wire.codec (⟨{ timestamp := 0 }, HybridMessageMap.ofConfig {},
        [⟨[97], data⟩]⟩ : MessageFrame (ListMap ParameterKey ParameterValue)) [] =
          .returned () bytes ∧
      deserialize Wire.codec (some bytes) (construct { timestamp := 0 } {}) = .returned true r' ∧
      r'.attachments ≠ [⟨[97], data⟩] := by
  have hlong : ¬HasLongString (⟨{ timestamp := 0 }, HybridMessageMap.ofConfig {},
      [⟨[97], data⟩]⟩ : MessageFrame (ListMap ParameterKey ParameterValue)) := by
    rintro (⟨key, val, hmem, -⟩ | ⟨a, ha, hname⟩)
    · exact absurd hmem List.not_mem_nil
    · obtain rfl := List.mem_singleton.mp ha
      have hshort : ¬2 ^ 32 ≤ ([97] : ByteString).length := by decide
      exact absurd hname hshort
  have hnone : 0 < 2 ^ 32 := by decide
  obtain ⟨bytes, r', hser, hdes, hattach⟩ := narrowed_attachments Wire.lawful wire_packBinBody
    (reachable_attached [97] data).inv hlong hnone [] (construct { timestamp := 0 } {})
  refine ⟨bytes, r', hser, hdes, ?_⟩
  rw [hattach]
  exact narrow_attachments_ne (.inr ⟨_, List.mem_singleton_self _, hdata⟩)

/-- An attachment of `2 ^ 32` bytes: the frame is serialized, the buffer is accepted, and the
receiver has another attachment. -/
theorem narrowing_fails :
    ∃ (f r' : MessageFrame (ListMap ParameterKey ParameterValue)) (bytes : ByteString),
      Reachable Wire.codec f ∧ f.attachments = [⟨[97], List.replicate (2 ^ 32) 0⟩] ∧
      f.serialize Wire.codec [] = .returned () bytes ∧
      deserialize Wire.codec (some bytes) (construct { timestamp := 0 } {}) = .returned true r' ∧
      r'.attachments ≠ f.attachments := by
  obtain ⟨bytes, r', hser, hdes, hne⟩ := narrowed_attachment (List.replicate (2 ^ 32) 0)
    (Nat.le_of_eq List.length_replicate.symm)
  exact ⟨_, r', bytes, reachable_attached [97] _, rfl, hser, hdes, hne⟩

end MessageFrame

end MsgFrame
