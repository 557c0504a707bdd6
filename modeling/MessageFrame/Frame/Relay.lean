import MessageFrame.Frame.RoundTrip

/-!
# Relay stability

A frame that is received and serialized again. The relay holds the same entries as the sender
(`Holds`), and a value that has been read back is packed into the same bytes as the value that was
sent, so what the relay writes is what it has read, up to the order of the entries. The order is
that of the buffer as long as the vector takes the entries: the storage of the relay is chosen by
the number of pairs on the wire, and neither its own hint nor the mode of the sender matters.

For doubles this needs that the library packs the double it has read back as it has packed the
original, which is weaker than that it reads the original back.
-/

namespace MsgFrame

open Msgpack AssocList

variable {M : Codec} {same : Double → Double → Prop}

/-- The same value is packed in the same way. -/
theorem ParameterValue.SameValue.pack_eq (hrepack : ∀ d d', same d d' → M.packDouble d' =
    M.packDouble d) {v v' : ParameterValue} (h : SameValue same v v') : v'.pack M = v.pack M := by
  cases h with
  | @double d d' hd =>
    have hdouble : ∀ d, (ParameterValue.double d).pack M = (do
        write (M.packArray 2)
        write (M.packUInt8 20)
        write (M.packDouble d)) := fun _ => rfl
    rw [hdouble, hdouble, hrepack d d' hd]
  | unknown | int64 _ | string _ | bool _ => rfl

/-- The same entry is packed in the same way. -/
theorem SameEntry.packEntry_eq (hrepack : ∀ d d', same d d' → M.packDouble d' = M.packDouble d)
    {e e' : ParameterKey × ParameterValue} (h : SameEntry same e e') :
    HybridMessageMap.packEntry M e' = HybridMessageMap.packEntry M e := by
  unfold HybridMessageMap.packEntry
  rw [h.1, h.2.pack_eq hrepack]

namespace HybridMessageMap

/-- The same entries are packed in the same way, one after another. -/
theorem forEach_packEntry_eq (hrepack : ∀ d d', same d d' → M.packDouble d' = M.packDouble d)
    {l l' : List (ParameterKey × ParameterValue)} (h : List.Forall₂ (SameEntry same) l l') :
    Proc.forEach (packEntry M) l' = Proc.forEach (packEntry M) l := by
  induction h with
  | nil => rfl
  | cons he _ ih => rw [Proc.forEach_cons, Proc.forEach_cons, he.packEntry_eq hrepack, ih]

/-- The same entries have the same pairs. -/
theorem pairs_eq (hrepack : ∀ d d', same d d' → M.packDouble d' = M.packDouble d)
    {l l' : List (ParameterKey × ParameterValue)} (h : List.Forall₂ (SameEntry same) l l')
    {pairs pairs' : List (Object × Object)} (hpairs : List.Forall₂ (PairOf M same) l pairs)
    (hpairs' : List.Forall₂ (PairOf M same) l' pairs') : pairs' = pairs := by
  induction h generalizing pairs pairs' with
  | nil =>
    cases hpairs
    cases hpairs'
    rfl
  | @cons e e' l l' he _ ih =>
    cases hpairs with
    | @cons _ pair _ pairs hpair hrest =>
      cases hpairs' with
      | @cons _ pair' _ pairs' hpair' hrest' =>
        have hkey : pair'.1 = pair.1 := by rw [hpair'.key, hpair.key, he.1]
        have hpacked := hpair'.packed
        rw [he.2.pack_eq hrepack] at hpacked
        rw [ih hrest hrest', Prod.ext hkey (hpacked.unique hpair.packed)]

end HybridMessageMap

namespace MessageFrame

variable {μ : Type} [UnorderedMap μ ParameterKey ParameterValue]

/-- What a receiver holds fits the wire again. -/
theorem Holds.fitsWire {f r : MessageFrame μ} {l : List (ParameterKey × ParameterValue)}
    (hr : Holds same f r l) (hfit : FitsWire f) : FitsWire r := by
  obtain ⟨hcount, hentries⟩ := hfit.entries
  have hsame : ∀ e' ∈ l, ∃ e ∈ f.parameters.entries, SameEntry same e e' := by
    have hforall := hr.entries
    generalize f.parameters.entries = es at hforall
    clear hr
    induction hforall with
    | nil => exact fun e' he' => absurd he' List.not_mem_nil
    | @cons e e' es l he _ ih =>
      refine List.forall_mem_cons.mpr ⟨⟨e, List.mem_cons_self, he⟩, fun d' hd' => ?_⟩
      obtain ⟨d, hd, hsame⟩ := ih d' hd'
      exact ⟨d, List.mem_cons_of_mem e hd, hsame⟩
  refine .of_entries ?_ (fun e' he' => ?_) ?_ ?_
  · rwa [hr.perm.length_eq, ← hr.entries.length_eq]
  · obtain ⟨e, he, hkey, hval⟩ := hsame e' (hr.perm.mem_iff.mp he')
    obtain ⟨hkeyFits, hvalFits⟩ := hentries e he
    refine ⟨by rwa [hkey], fun s hs => hvalFits s ?_⟩
    rw [hs] at hval
    generalize e.2 = v at hval
    cases hval
    rfl
  · rw [hr.attachments]
    exact hfit.attachmentCount
  · rw [hr.attachments]
    exact fun a ha => ⟨hfit.name a ha, hfit.data a ha⟩

/-- A receiver that holds the entries in the order of the sender serializes the same bytes. -/
theorem Holds.serialize_eq (hrepack : ∀ d d', same d d' → M.packDouble d' = M.packDouble d)
    {f r : MessageFrame μ} {l : List (ParameterKey × ParameterValue)} (hr : Holds same f r l)
    (h : f.parameters.Inv) (horder : r.parameters.entries = l) [LawfulUnorderedMap μ] :
    r.serialize M = f.serialize M := by
  have hparams : r.parameters.pack M = f.parameters.pack M := by
    rw [HybridMessageMap.pack_eq hr.inv, HybridMessageMap.pack_eq h, horder,
      HybridMessageMap.forEach_packEntry_eq hrepack hr.entries, hr.entries.length_eq]
  unfold serialize
  rw [hr.header, hr.attachments, hparams]

variable [LawfulUnorderedMap μ]

/-- **Relay stability.** Suppose that the library packs the double it reads back for a double as
it has packed the double. What a frame that fits the wire has serialized is accepted by every
receiver, and the receiver then serializes the same bytes if the frame has at most
`smallCapacity` parameters. Whatever their number, the two buffers are an array of the header of the
frame, of a map of the pairs of its parameters, in the relay in some order, and of its
attachments. -/
theorem relay_stable (hM : M.Lawful same)
    (hrepack : ∀ d d', same d d' → M.packDouble d' = M.packDouble d) {f : MessageFrame μ}
    (hf : Reachable M f) (hfit : FitsWire f) (r : MessageFrame μ) (buffer buffer' : ByteString) :
    ∃ bytes r' bytes', f.serialize M buffer = .returned () bytes ∧
      deserialize M (some bytes) r = .returned true r' ∧
      r'.serialize M buffer' = .returned () bytes' ∧
      (∀ n, f.parametersSize = .ok n → n ≤ smallCapacity → bytes' = bytes) ∧
      ∃ pairs pairs', f.parametersSize = .ok pairs.length ∧
        List.Forall₂ (HybridMessageMap.PairOf M same) f.parameters.entries pairs ∧
        pairs'.Perm pairs ∧
        M.unpack bytes = some (.array [.array f.header.fieldObjects, .map pairs,
          .array (f.attachments.map attachmentObject)]) ∧
        M.unpack bytes' = some (.array [.array f.header.fieldObjects, .map pairs',
          .array (f.attachments.map attachmentObject)]) := by
  obtain ⟨bytes, pairs, r', l, hser, hdec, hpairs, hdes, hholds⟩ :=
    serialize_deserialize hM hf.inv hfit r
  obtain ⟨bytes', pairs', hser', hdec', hpairs'⟩ :=
    serialize_packs hM hholds.inv (hholds.fitsWire hfit)
  rw [hholds.header, hholds.attachments] at hdec'
  have hsize : f.parametersSize = .ok f.parameters.entries.length :=
    HybridMessageMap.size_eq hf.inv
  refine ⟨bytes, r', bytes', hser buffer, hdes, hser' buffer', fun n hn hsmall => ?_,
    pairs, pairs', by rw [hsize, hpairs.length_eq], hpairs, ?_, hdec.unpack_eq, hdec'.unpack_eq⟩
  · obtain rfl : f.parameters.entries.length = n := Except.ok.inj (hsize.symm.trans hn)
    have hsame := hser' buffer
    rw [hholds.serialize_eq hrepack hf.inv (hholds.order hsmall), hser] at hsame
    exact (Outcome.returned.inj hsame).2.symm
  · -- the pairs of the relay, put back into the order of the list `l`
    obtain ⟨ordered, hordered, hperm⟩ := List.perm_comp_forall₂ hholds.perm.symm hpairs'
    rw [← HybridMessageMap.pairs_eq hrepack hholds.entries hpairs hordered]
    exact hperm.symm

/-- A frame with the same key twice, relayed through a frame that was primed for map mode. -/
theorem relay_stable_hinted :
    ∃ (f r' : MessageFrame (ListMap ParameterKey ParameterValue)) (bytes : ByteString),
      Proc.execAll (FrameCall.exec Wire.codec)
        [.parameters (.add [97] [98] (.lvalue (.int64 (-5)))),
          .parameters (.add [97] [98] (.lvalue .unknown))] (construct { timestamp := 7 } {}) =
          .ok ([some .void, some .void], f) ∧
      f.serialize Wire.codec [] = .returned () bytes ∧
      deserialize Wire.codec (some bytes) (construct { timestamp := 8 } { initialReserve := 200 }) =
        .returned true r' ∧
      r'.serialize Wire.codec [1, 2] = .returned () bytes := by
  have hreach : Reachable Wire.codec (⟨{ timestamp := 7 }, ⟨true,
      [(⟨[97, 0x1F, 98]⟩, .int64 (-5)), (⟨[97, 0x1F, 98]⟩, .unknown)], {}, none⟩, []⟩ :
        MessageFrame (ListMap ParameterKey ParameterValue)) :=
    .call (.parameters (.add [97] [98] (.lvalue .unknown))) (.call (.parameters (.add [97] [98]
      (.lvalue (.int64 (-5))))) (.construct 7 {}) rfl) rfl
  have hfit : FitsWire (⟨{ timestamp := 7 }, ⟨true,
      [(⟨[97, 0x1F, 98]⟩, .int64 (-5)), (⟨[97, 0x1F, 98]⟩, .unknown)], {}, none⟩, []⟩ :
        MessageFrame (ListMap ParameterKey ParameterValue)) := by
    refine .of_entries (by decide) ?_ (by decide) (by simp)
    intro e he
    simp only [HybridMessageMap.entries_vector, List.mem_cons, List.not_mem_nil, or_false] at he
    rcases he with rfl | rfl
    · exact ⟨by decide, fun s h => by cases h⟩
    · exact ⟨by decide, fun s h => by cases h⟩
  obtain ⟨bytes, r', bytes', hser, hdes, hser', hsame, -⟩ := relay_stable Wire.lawful
    (fun d d' h => by rw [h]) hreach hfit (construct { timestamp := 8 } { initialReserve := 200 })
    [] [1, 2]
  obtain rfl := hsame 2 rfl (by decide)
  exact ⟨_, r', bytes', rfl, hser, hdes, hser'⟩

end MessageFrame

end MsgFrame
