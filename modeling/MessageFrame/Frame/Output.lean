import MessageFrame.ForMathlib.Runs
import MessageFrame.Frame.Truncation
import MessageFrame.Model.Output

/-!
# Frames that run out of memory while they are sent

`serialize` writes to a vector that may not be able to grow, and leaves it with whatever it holds
when the exception comes. That is a proper beginning of the encoding (`serializeInto_ending`), so a
receiver who is sent the buffer all the same rejects it (`interrupted_rejected`).

A sender who uses one buffer for all its frames attempts no allocation as long as their encodings
fit (`reused_buffer_iff`): the buffer keeps its memory when it is cleared.
-/

namespace MsgFrame

open Msgpack GrowingVector

/-! ### Packing code -/

/-- The procedures append the same bytes, the second one as far as there is memory. -/
def Buffered (x : Proc ByteString Unit) (y : Proc OutputBuffer Unit) : Prop :=
  ∃ bytes, (∀ buf, x buf = .returned () (buf ++ bytes)) ∧ ∀ v, Appended bytes v (y v)

namespace Buffered

variable {x x' : Proc ByteString Unit} {y y' : Proc OutputBuffer Unit} (fails : ℕ → Bool)
  (pieces : Pieces UInt8)

theorem write (bytes : ByteString) :
    Buffered (MsgFrame.write bytes) (OutputBuffer.write fails pieces bytes) :=
  ⟨bytes, fun _ => rfl, insertPieces_appended pieces bytes⟩

variable {fails pieces}

theorem bind (h : Buffered x y) (h' : Buffered x' y') :
    Buffered (x >>= fun _ => x') (y >>= fun _ => y') := by
  obtain ⟨bytes, hx, hy⟩ := h
  obtain ⟨bytes', hx', hy'⟩ := h'
  refine ⟨bytes ++ bytes', fun buf => ?_, fun v => (hy v).bind hy'⟩
  rw [Proc.bind_of_returned (hx buf), hx', List.append_assoc]

theorem forEach {α : Type} {body : α → Proc ByteString Unit} {body' : α → Proc OutputBuffer Unit}
    {as : List α} (h : ∀ a ∈ as, Buffered (body a) (body' a)) :
    Buffered (Proc.forEach body as) (Proc.forEach body' as) := by
  induction as with
  | nil => exact ⟨[], fun buf => by rw [Proc.forEach_nil, List.append_nil], Appended.nil⟩
  | cons a as ih =>
    rw [Proc.forEach_cons, Proc.forEach_cons]
    exact (h a List.mem_cons_self).bind (ih fun b hb => h b (List.mem_cons_of_mem a hb))

/-- A string that is not too long, and what comes after it. -/
theorem string {M : Codec} {same : Double → Double → Prop} (hM : M.Lawful same) {s : ByteString}
    (hs : s.length < 2 ^ 32) {f : ByteString → Proc ByteString Unit}
    {g : ByteString → Proc OutputBuffer Unit} (h : ∀ bytes, Buffered (f bytes) (g bytes)) :
    Buffered (Proc.orThrow (M.packString s) >>= f) (Proc.orThrow (M.packString s) >>= g) := by
  obtain ⟨bytes, hpack, -⟩ := hM.string s hs
  rw [hpack]
  exact h bytes

end Buffered

section

variable (fails : ℕ → Bool) (pieces : Pieces UInt8) {M : Codec} {same : Double → Double → Prop}

theorem MessageHeader.packInto_buffered (M : Codec) (h : MessageHeader) :
    Buffered (h.pack M) (h.packInto fails pieces M) := by
  have hwrite := Buffered.write fails pieces
  exact (hwrite _).bind <| (hwrite _).bind <| (hwrite _).bind <| (hwrite _).bind <|
    (hwrite _).bind <| (hwrite _).bind <| (hwrite _).bind <| (hwrite _).bind (hwrite _)

theorem ParameterValue.packInto_buffered (hM : M.Lawful same) {v : ParameterValue}
    (hv : ∀ s, v = .string s → s.length < 2 ^ 32) :
    Buffered (v.pack M) (v.packInto fails pieces M) := by
  have hwrite := Buffered.write fails pieces
  refine (hwrite _).bind ((hwrite _).bind ?_)
  cases v with
  | unknown | int64 | double | bool => exact hwrite _
  | string s => exact .string hM (hv s rfl) hwrite

theorem HybridMessageMap.packEntryInto_buffered (hM : M.Lawful same)
    {e : ParameterKey × ParameterValue} (he : FitsEntry e) :
    Buffered (packEntry M e) (packEntryInto fails pieces M e) :=
  .string hM he.1 fun bytes =>
    (Buffered.write fails pieces bytes).bind (e.2.packInto_buffered fails pieces hM he.2)

theorem HybridMessageMap.packInto_eq {μ : Type} [UnorderedMap μ ParameterKey ParameterValue]
    [LawfulUnorderedMap μ] {m : HybridMessageMap μ} (h : m.Inv) :
    m.packInto fails pieces M = (do
      OutputBuffer.write fails pieces (M.packMap m.entries.length.toUInt32)
      Proc.forEach (packEntryInto fails pieces M) m.entries) := by
  unfold packInto
  rw [size_eq h]
  cases h with
  | vector _ _ => rfl
  | map => rfl

theorem MessageFrame.packAttachmentInto_buffered (hM : M.Lawful same) {a : Attachment}
    (ha : a.name.length < 2 ^ 32) :
    Buffered (packAttachment M a) (packAttachmentInto fails pieces M a) := by
  have hwrite := Buffered.write fails pieces
  exact (hwrite _).bind <| .string hM ha fun bytes =>
    (hwrite bytes).bind ((hwrite _).bind (hwrite _))

end

/-! ### The frame -/

namespace MessageFrame

variable {μ : Type} [UnorderedMap μ ParameterKey ParameterValue] (fails : ℕ → Bool)
  (pieces : Pieces UInt8) {M : Codec} {same : Double → Double → Prop}

/-- How `serialize` ends on a buffer that is to hold the bytes. -/
inductive Serialized (bytes : ByteString) (buf : OutputBuffer) : Outcome OutputBuffer Unit → Prop
  /-- There was room. -/
  | fitted {buf' : OutputBuffer} (hroom : max 1024 bytes.length ≤ buf.capacity)
      (hcapacity : buf'.capacity = buf.capacity) (hcount : buf'.attempts = buf.attempts)
      (helems : buf'.elems = bytes) : Serialized bytes buf (.returned () buf')
  /-- The buffer has grown. -/
  | grown {buf' : OutputBuffer} (hfull : buf.capacity < max 1024 bytes.length)
      (hcount : buf.attempts < buf'.attempts) (helems : buf'.elems = bytes) :
    Serialized bytes buf (.returned () buf')
  /-- The buffer could not grow, and the rest is missing. -/
  | interrupted {buf' : OutputBuffer} {rest : ByteString}
      (hfull : buf.capacity < max 1024 bytes.length) (hcount : buf.attempts < buf'.attempts)
      (hcut : buf'.elems ++ rest = bytes) (hrest : rest ≠ []) :
    Serialized bytes buf (.threw buf')

private theorem Serialized.of_room {bytes : ByteString} {buf : OutputBuffer}
    (hroom : 1024 ≤ buf.capacity) {out : Outcome OutputBuffer Unit}
    (h : Appended bytes ⟨[], buf.capacity, buf.attempts⟩ out) : Serialized bytes buf out := by
  cases h with
  | fitted hfits =>
    refine .fitted (max_le hroom hfits) ?_ rfl rfl
    rw [GrowingVector.capacity, List.nil_append]
    exact Nat.add_sub_of_le hfits
  | grown hfull hcount helems => exact .grown (hfull.trans_le (le_max_right _ _)) hcount helems
  | cut front rest hfull hcount hlist hrest helems =>
    refine .interrupted (hfull.trans_le (le_max_right _ _)) hcount ?_ hrest
    rw [helems, List.nil_append, hlist]

private theorem Serialized.of_reserved {bytes : ByteString} {buf : OutputBuffer} {n : ℕ}
    (hsmall : buf.capacity < 1024) (hn : buf.attempts < n) {out : Outcome OutputBuffer Unit}
    (h : Appended bytes ⟨[], 1024, n⟩ out) : Serialized bytes buf out := by
  have hfull : buf.capacity < max 1024 bytes.length := hsmall.trans_le (le_max_left _ _)
  cases h with
  | fitted _ => exact .grown hfull hn rfl
  | grown _ hcount helems => exact .grown hfull (hn.trans hcount) helems
  | cut front rest _ hcount hlist hrest helems =>
    refine .interrupted hfull (hn.trans hcount) ?_ hrest
    rw [helems, List.nil_append, hlist]

/-- `serialize` behind the constructor of `VectorBuffer`. -/
private def sectionsInto (M : Codec) (f : MessageFrame μ) : Proc OutputBuffer Unit := do
  OutputBuffer.write fails pieces (M.packArray 3)
  f.header.packInto fails pieces M
  f.parameters.packInto fails pieces M
  (do
    OutputBuffer.write fails pieces (M.packArray f.attachments.length.toUInt32)
    Proc.forEach (packAttachmentInto fails pieces M) f.attachments)

private theorem capacity_empty (room attempts : ℕ) :
    (⟨[], room, attempts⟩ : OutputBuffer).capacity = room := by
  rw [GrowingVector.capacity, List.length_nil, Nat.zero_add]

private theorem reserve_empty (n room attempts : ℕ) :
    reserve fails n (⟨[], room, attempts⟩ : OutputBuffer) =
      if n ≤ room then .returned () ⟨[], room, attempts⟩
      else if fails attempts then .threw ⟨[], room, attempts + 1⟩
      else .returned () ⟨[], n, attempts + 1⟩ := by
  rw [reserve_eq, capacity_empty]
  rfl

/-- The constructor of `VectorBuffer` reserves memory only if there is too little. -/
private theorem vectorBuffer_cases (x : Proc OutputBuffer Unit) (room attempts : ℕ) :
    (1024 ≤ room ∧ (OutputBuffer.vectorBuffer fails >>= fun _ => x) ⟨[], room, attempts⟩ =
        x ⟨[], room, attempts⟩) ∨
      room < 1024 ∧ ∃ n, attempts < n ∧
        ((∃ room', (OutputBuffer.vectorBuffer fails >>= fun _ => x) ⟨[], room, attempts⟩ =
            .threw ⟨[], room', n⟩) ∨
          (OutputBuffer.vectorBuffer fails >>= fun _ => x) ⟨[], room, attempts⟩ =
            x ⟨[], 1024, n⟩) := by
  have hclear : GrowingVector.clear (⟨[], room, attempts⟩ : OutputBuffer) =
      .returned () ⟨[], room, attempts⟩ := by
    rw [GrowingVector.clear, Proc.modify_apply, capacity_empty]
  have hbuffer : OutputBuffer.vectorBuffer fails ⟨[], room, attempts⟩ =
      (if room < 1024 then reserve fails 1024 else pure ()) ⟨[], room, attempts⟩ := by
    unfold OutputBuffer.vectorBuffer
    rw [Proc.bind_of_returned hclear, Proc.get_bind, capacity_empty]
  rw [Proc.bind_apply, hbuffer]
  by_cases hsmall : room < 1024
  · refine .inr ⟨hsmall, attempts + 1, Nat.lt_succ_self _, ?_⟩
    rw [if_pos hsmall, reserve_empty, if_neg (Nat.not_le.mpr hsmall)]
    cases fails attempts with
    | true => exact .inl ⟨room, rfl⟩
    | false => exact .inr rfl
  · rw [if_neg hsmall]
    exact .inl ⟨Nat.le_of_not_lt hsmall, rfl⟩

/-- The reservations come first. If there is too little memory, one of them is attempted. -/
private theorem serializeInto_cases (M : Codec) (f : MessageFrame μ) (buf : OutputBuffer) :
    (1024 ≤ buf.capacity ∧ f.serializeInto fails pieces M buf =
        sectionsInto fails pieces M f ⟨[], buf.capacity, buf.attempts⟩) ∨
      buf.capacity < 1024 ∧ ∃ n, buf.attempts < n ∧
        ((∃ room, f.serializeInto fails pieces M buf = .threw ⟨[], room, n⟩) ∨
          f.serializeInto fails pieces M buf = sectionsInto fails pieces M f ⟨[], 1024, n⟩) := by
  have hclear : GrowingVector.clear buf = .returned () ⟨[], buf.capacity, buf.attempts⟩ := rfl
  have hser : f.serializeInto fails pieces M buf =
      ((if buf.capacity < 512 then reserve fails 512 else pure ()) >>= fun _ =>
        OutputBuffer.vectorBuffer fails >>= fun _ => sectionsInto fails pieces M f)
          ⟨[], buf.capacity, buf.attempts⟩ := by
    unfold serializeInto
    rw [Proc.bind_of_returned hclear, Proc.get_bind, capacity_empty]
    split_ifs <;> rfl
  rw [hser, Proc.bind_apply]
  by_cases hsmall : buf.capacity < 512
  · have hless : buf.capacity < 1024 := by omega
    rw [if_pos hsmall, reserve_empty, if_neg (Nat.not_le.mpr hsmall)]
    cases fails buf.attempts with
    | true => exact .inr ⟨hless, _, Nat.lt_succ_self _, .inl ⟨_, rfl⟩⟩
    | false =>
      -- the second reservation follows, since 512 bytes are not enough
      obtain ⟨henough, -⟩ | ⟨-, n, hn, h⟩ :=
        vectorBuffer_cases fails (sectionsInto fails pieces M f) 512 (buf.attempts + 1)
      · exact absurd henough (by decide)
      · exact .inr ⟨hless, n, Nat.lt_of_succ_lt hn, h⟩
  · rw [if_neg hsmall]
    exact vectorBuffer_cases fails (sectionsInto fails pieces M f) buf.capacity buf.attempts

variable [LawfulUnorderedMap μ]

private theorem sectionsInto_buffered (hM : M.Lawful same) {f : MessageFrame μ}
    (h : f.parameters.Inv) (hfit : FitsWire f) :
    ∃ bytes, (∀ buffer, f.serialize M buffer = .returned () bytes) ∧
      ∀ v, Appended bytes v (sectionsInto fails pieces M f v) := by
  obtain ⟨-, hentries⟩ := hfit.entries
  have hwrite := Buffered.write fails pieces
  have hparameters : Buffered (f.parameters.pack M) (f.parameters.packInto fails pieces M) := by
    rw [HybridMessageMap.pack_eq h, HybridMessageMap.packInto_eq fails pieces h]
    exact (hwrite _).bind (.forEach fun e he =>
      HybridMessageMap.packEntryInto_buffered fails pieces hM (hentries e he))
  obtain ⟨bytes, hplain, hbuffered⟩ := (hwrite (M.packArray 3)).bind <|
    (f.header.packInto_buffered fails pieces M).bind <| hparameters.bind <|
    (hwrite (M.packArray f.attachments.length.toUInt32)).bind <| .forEach fun a ha =>
      packAttachmentInto_buffered fails pieces hM (hfit.name a ha)
  refine ⟨bytes, fun buffer => ?_, hbuffered⟩
  rw [serialize_eq]
  exact hplain []

/-- **Serialization under memory pressure**: all bytes, or a proper beginning of them. -/
theorem serializeInto_ending (hM : M.Lawful same) {f : MessageFrame μ} (h : f.parameters.Inv)
    (hfit : FitsWire f) :
    ∃ bytes, (∀ buffer, f.serialize M buffer = .returned () bytes) ∧
      ∀ buf, Serialized bytes buf (f.serializeInto fails pieces M buf) := by
  obtain ⟨bytes, hser, hbuffered⟩ := sectionsInto_buffered fails pieces hM h hfit
  have hne : bytes ≠ [] := by
    obtain ⟨bytes', pairs, hser', hdec, -⟩ := serialize_packs hM h hfit
    obtain ⟨-, rfl⟩ := Outcome.returned.inj ((hser []).symm.trans (hser' []))
    exact fun hnil => length_ne_zero hM hdec (by rw [hnil, List.length_nil])
  refine ⟨bytes, hser, fun buf => ?_⟩
  obtain ⟨hroom, hsections⟩ | ⟨hsmall, n, hn, ⟨room, hthrew⟩ | hsections⟩ :=
    serializeInto_cases fails pieces M f buf
  · rw [hsections]
    exact .of_room hroom (hbuffered _)
  · rw [hthrew]
    exact .interrupted (by omega) hn (List.nil_append bytes) hne
  · rw [hsections]
    exact .of_reserved hsmall hn (hbuffered _)

/-- **No frame is received in part.** With a library that reads an object without looking behind it,
let any frame that fits the wire be serialized into any buffer, whichever allocations fail and
however the packer writes its bytes. If `serialize` returns, the buffer holds what it holds with
ample memory, and every receiver accepts it; if it throws, every receiver rejects what it has left
in the buffer and stays as it was. -/
theorem interrupted_rejected (hM : M.Lawful same) (hstream : M.Streams) {f : MessageFrame μ}
    (hf : Reachable M f) (hfit : FitsWire f) (buf : OutputBuffer) (r : MessageFrame μ) :
    (∃ buf' r', f.serializeInto fails pieces M buf = .returned () buf' ∧
        f.serialize M buf.elems = .returned () buf'.elems ∧
        deserialize M (some buf'.elems) r = .returned true r') ∨
      ∃ buf', f.serializeInto fails pieces M buf = .threw buf' ∧
        deserialize M (some buf'.elems) r = .returned false r := by
  obtain ⟨bytes, hser, hinto⟩ := serializeInto_ending fails pieces hM hf.inv hfit
  obtain ⟨bytes', pairs, r', -, hser', hdec, -, hdes, -⟩ := serialize_deserialize hM hf.inv hfit r
  obtain ⟨-, rfl⟩ := Outcome.returned.inj ((hser []).symm.trans (hser' []))
  have hends := hinto buf
  generalize f.serializeInto fails pieces M buf = out at hends ⊢
  cases hends with
  | fitted _ _ _ helems =>
    exact .inl ⟨_, r', rfl, by rw [helems, hser], by rw [helems, hdes]⟩
  | grown _ _ helems => exact .inl ⟨_, r', rfl, by rw [helems, hser], by rw [helems, hdes]⟩
  | @interrupted buf' rest _ _ hcut hrest =>
    refine .inr ⟨buf', rfl, deserialize_of_unpack_eq_none (hdec.cut hstream ⟨rest, hcut⟩ ?_) r⟩
    intro heq
    rw [← hcut, List.self_eq_append_right] at heq
    exact hrest heq

/-- There is no memory at all, and the buffer stays empty. -/
theorem interrupted_rejected_empty :
    ∃ buf', (construct { timestamp := 7 } {} :
        MessageFrame (ListMap ParameterKey ParameterValue)).serializeInto (fun _ => true)
          ⟨fun l => [l], fun _ => List.append_nil _⟩ Wire.codec {} = .threw buf' ∧
      deserialize Wire.codec (some buf'.elems)
          (construct { timestamp := 8 } {} : MessageFrame (ListMap ParameterKey ParameterValue)) =
        .returned false (construct { timestamp := 8 } {}) := by
  have hfit : FitsWire (construct { timestamp := 7 } {} :
      MessageFrame (ListMap ParameterKey ParameterValue)) :=
    .of_entries (by decide) (fun e he => absurd he List.not_mem_nil) (by decide)
      fun a ha => absurd ha List.not_mem_nil
  obtain ⟨buf', r', hser, -⟩ | h := interrupted_rejected (fun _ => true)
    ⟨fun l => [l], fun _ => List.append_nil _⟩ Wire.lawful Wire.streams (.construct 7 {}) hfit {}
    (construct { timestamp := 8 } {})
  · cases hser
  · exact h

/-! ### One buffer for many frames -/

/-- The encoding of the frame needs no more than so many bytes. -/
def FitsBuffer (M : Codec) (f : MessageFrame μ) (capacity : ℕ) : Prop :=
  ∀ bytes, f.serialize M [] = .returned () bytes → bytes.length ≤ capacity

/-- **One frame**: no allocation is attempted exactly if there is room. -/
private theorem serializeInto_room (hM : M.Lawful same) {f : MessageFrame μ} (hf : Reachable M f)
    (hfit : FitsWire f) (buf : OutputBuffer) :
    (1024 ≤ buf.capacity ∧ FitsBuffer M f buf.capacity ∧ ∃ buf', buf'.capacity = buf.capacity ∧
        buf'.attempts = buf.attempts ∧ f.serializeInto fails pieces M buf = .returned () buf') ∨
      ¬(1024 ≤ buf.capacity ∧ FitsBuffer M f buf.capacity) ∧
        ∀ buf', f.serializeInto fails pieces M buf = .returned () buf' →
          buf.attempts < buf'.attempts := by
  obtain ⟨bytes, hser, hinto⟩ := serializeInto_ending fails pieces hM hf.inv hfit
  have hbuffer : ∀ n, FitsBuffer M f n ↔ bytes.length ≤ n := by
    refine fun n => ⟨fun h => h bytes (hser []), fun h bytes' hser' => ?_⟩
    obtain ⟨-, rfl⟩ := Outcome.returned.inj ((hser []).symm.trans hser')
    exact h
  rw [hbuffer, ← max_le_iff]
  have hends := hinto buf
  generalize f.serializeInto fails pieces M buf = out at hends
  cases hends with
  | @fitted buf' hroom hcapacity hcount _ =>
    exact .inl ⟨(max_le_iff.mp hroom).1, (max_le_iff.mp hroom).2, buf', hcapacity, hcount, rfl⟩
  | grown hfull hcount _ =>
    refine .inr ⟨Nat.not_le.mpr hfull, fun buf' h => ?_⟩
    obtain ⟨-, rfl⟩ := Outcome.returned.inj h
    exact hcount
  | interrupted hfull _ _ _ => exact .inr ⟨Nat.not_le.mpr hfull, nofun⟩

/-- **No allocation with a buffer that is used again.** Serialize any frames that fit the wire into
one buffer, one after another. No allocation is attempted exactly if the buffer has room for 1024
bytes and for each of the encodings; and then, whichever allocations would fail, every call
returns. -/
theorem reused_buffer_iff (hM : M.Lawful same) {fs : List (MessageFrame μ)}
    (hfs : ∀ f ∈ fs, Reachable M f ∧ FitsWire f) (buf : OutputBuffer) :
    (∀ done, done <+: fs → ∃ buf', buf'.attempts = buf.attempts ∧
        Proc.execAll (fun f => serializeInto fails pieces M f) done buf =
          .ok (done.map fun _ => some (), buf')) ↔
      ∀ f ∈ fs, 1024 ≤ buf.capacity ∧ FitsBuffer M f buf.capacity := by
  induction fs generalizing buf with
  | nil =>
    refine iff_of_true (fun done hdone => ?_) fun f hf => absurd hf List.not_mem_nil
    obtain rfl := List.prefix_nil.mp hdone
    exact ⟨buf, rfl, rfl⟩
  | cons f fs ih =>
    obtain ⟨hreach, hfit⟩ := hfs f List.mem_cons_self
    have ih := fun buf => ih (fun g hg => hfs g (List.mem_cons_of_mem f hg)) buf
    obtain ⟨hsmall, hbytes, buf₁, hcapacity, hcount, hser⟩ | ⟨hfull, hgrows⟩ :=
      serializeInto_room fails pieces hM hreach hfit buf
    · rw [List.forall_mem_cons, and_iff_right ⟨hsmall, hbytes⟩, ← hcapacity, ← ih buf₁, hcount]
      constructor
      · intro h done hdone
        obtain ⟨buf', hcount', hexec⟩ := h (f :: done) (List.cons_prefix_cons.mpr ⟨rfl, hdone⟩)
        obtain ⟨buf₂, hser', hexec⟩ := Proc.execAll_cons_returned_iff.mp hexec
        obtain ⟨-, rfl⟩ := Outcome.returned.inj (hser.symm.trans hser')
        exact ⟨buf', hcount', hexec⟩
      · rintro h (_ | ⟨g, done⟩) hdone
        · exact ⟨buf, rfl, rfl⟩
        · obtain ⟨rfl, hdone'⟩ := List.cons_prefix_cons.mp hdone
          obtain ⟨buf', hcount', hexec⟩ := h done hdone'
          exact ⟨buf', hcount', Proc.execAll_cons_returned_iff.mpr ⟨buf₁, hser, hexec⟩⟩
    · refine iff_of_false (fun h => ?_) fun h => hfull (h f List.mem_cons_self)
      obtain ⟨buf', hcount, hexec⟩ := h [f] (by simp)
      obtain ⟨buf₁, hser, hexec⟩ := Proc.execAll_cons_returned_iff.mp hexec
      cases hexec
      exact absurd hcount (hgrows _ hser).ne'

/-- Two frames of fourteen bytes are sent from a buffer of 1024 bytes, when all memory is gone. -/
theorem reused_buffer_iff_twice :
    ∃ buf' : OutputBuffer, buf'.attempts = 0 ∧
      Proc.execAll (fun f => serializeInto (fun _ => true)
          ⟨fun l => [l], fun _ => List.append_nil _⟩ Wire.codec f)
        [(construct { timestamp := 7 } {} : MessageFrame (ListMap ParameterKey ParameterValue)),
          construct { timestamp := 8 } {}] { room := 1024 } = .ok ([some (), some ()], buf') := by
  have hfit : ∀ now : UInt64, FitsWire (construct { timestamp := now } {} :
      MessageFrame (ListMap ParameterKey ParameterValue)) := fun now =>
    .of_entries (Nat.two_pow_pos 32) (fun e he => absurd he List.not_mem_nil) (Nat.two_pow_pos 32)
      fun a ha => absurd ha List.not_mem_nil
  have hfs : ∀ f ∈ [(construct { timestamp := 7 } {} :
      MessageFrame (ListMap ParameterKey ParameterValue)), construct { timestamp := 8 } {}],
      Reachable Wire.codec f ∧ FitsWire f := by
    rw [List.forall_mem_cons, List.forall_mem_singleton]
    exact ⟨⟨.construct 7 {}, hfit 7⟩, .construct 8 {}, hfit 8⟩
  refine (reused_buffer_iff _ _ Wire.lawful hfs { room := 1024 }).mpr ?_ _ (List.prefix_refl _)
  rw [List.forall_mem_cons, List.forall_mem_singleton]
  refine ⟨⟨le_rfl, ?_⟩, le_rfl, ?_⟩
  · rintro bytes hser
    cases hser
    decide
  · rintro bytes hser
    cases hser
    decide

end MessageFrame

end MsgFrame
