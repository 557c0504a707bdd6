import MessageFrame.Container.Refinement
import MessageFrame.Frame.LocalValue
import MessageFrame.MessagePack.WireLawful

/-!
# The frame refines a message

What a frame is for: a header, a finite map of parameters and a list of attachments (`Message`).
`FrameCall.step` is that abstract machine. Its most delicate step is the reception of a buffer:
section after section replaces its part of the message, up to the first one that does not convert,
and what has been replaced stays replaced (`Message.receive`).

The refinement relation (`Represents`) reads the parameters through their lookups, so it sees
neither the storage mode nor the sizing hint, nor the entries that are shadowed by an earlier one.
`frame_refines_message` follows any calls, receptions among them, with the local values of the
decoder as objects. The buffers may have any content that does not make the destructor of such a
value undefined.
-/

namespace MsgFrame

open Msgpack AssocList

/-- A message, as a client sees it. -/
structure Message where
  header : MessageHeader
  parameters : PartialMap ByteString ParameterValue
  attachments : List Attachment

namespace Message

/-- The reception of a buffer: whether it is accepted, and the message afterwards. -/
def receive (M : Codec) (data : Option ByteString) (t : Message) : Bool × Message :=
  match MessageFrame.sections M data with
  | none => (false, t)
  | some (headerObj, parametersObj, attachmentsObj) =>
    let t := { t with header := MessageHeader.received M headerObj t.header }
    if MessageHeader.convertible M headerObj then
      let t := { t with
        parameters := fun key => (HybridMessageMap.received M parametersObj).lookup ⟨key⟩ }
      if HybridMessageMap.convertible M parametersObj then
        (MessageFrame.attachmentsConvertible M attachmentsObj,
          { t with attachments := MessageFrame.receivedAttachments M attachmentsObj })
      else (false, t)
    else (false, t)

end Message

/-- The abstract machine: a message under the calls of the frame API. -/
def FrameCall.step (M : Codec) : FrameCall → Message → Reply × Message
  | .parameters call, t =>
    ((call.step t.parameters).1, { t with parameters := (call.step t.parameters).2 })
  | .header setter, t => (.void, { t with header := t.header.apply setter })
  | .addAttachment name data, t =>
    (.void, { t with attachments := t.attachments ++ [⟨name, data⟩] })
  | .clear, t => (.void, { t with parameters := PartialMap.empty, attachments := [] })
  | .deserialize data, t => (.bool (t.receive M data).1, (t.receive M data).2)

namespace MessageFrame

variable {μ : Type} [UnorderedMap μ ParameterKey ParameterValue]

/-- The frame stands for the message. -/
structure Represents (f : MessageFrame μ) (t : Message) : Prop where
  header : f.header = t.header
  parameters : f.parameters.Refines t.parameters
  attachments : f.attachments = t.attachments

/-- The message that a valid frame stands for. -/
def message (f : MessageFrame μ) : Message where
  header := f.header
  parameters key := f.parameters.entries.lookup ⟨key⟩
  attachments := f.attachments

theorem represents_message {f : MessageFrame μ} (h : f.parameters.Inv) : f.Represents f.message :=
  ⟨rfl, ⟨h, fun _ => rfl⟩, rfl⟩

variable [LawfulUnorderedMap μ]

theorem represents_construct (header : MessageHeader) (config : FrameConfig) :
    (construct header config : MessageFrame μ).Represents ⟨header, PartialMap.empty, []⟩ :=
  ⟨rfl, .ofConfig config, rfl⟩

/-- An unpacked container stands for the first entries received. -/
theorem refines_of_unpacked {M : Codec} {obj : Object} {m m' : HybridMessageMap μ}
    (hu : HybridMessageMap.Unpacked M obj m m') :
    m'.Refines fun key => (HybridMessageMap.received M obj).lookup ⟨key⟩ :=
  ⟨hu.inv, fun key => hu.lookup ⟨key⟩⟩

/-- **Reception**: the answer is that of the abstract machine, and the frame follows it, whether
the buffer is accepted or wherever it is rejected. -/
theorem Represents.deserialized {M : Codec} {data : Option ByteString} {f f' : MessageFrame μ}
    {t : Message} {ok : Bool} (h : f.Represents t) (hd : Deserialized M data f ok f') :
    ok = (t.receive M data).1 ∧ f'.Represents (t.receive M data).2 := by
  have hheader : ∀ obj, MessageHeader.received M obj f.header =
      MessageHeader.received M obj t.header := fun obj => by rw [h.header]
  unfold Message.receive
  cases hd with
  | rejected hs =>
    rw [hs]
    exact ⟨rfl, h⟩
  | header hs hh =>
    simp only [hs, hh, Bool.false_eq_true, if_false]
    exact ⟨trivial, hheader _, h.parameters, h.attachments⟩
  | parameters hs hh hp hu =>
    simp only [hs, hh, hp, Bool.false_eq_true, if_false, if_true]
    exact ⟨trivial, hheader _, refines_of_unpacked hu, h.attachments⟩
  | attachments hs hh hp hu =>
    simp only [hs, hh, hp, if_true]
    exact ⟨trivial, hheader _, refines_of_unpacked hu, rfl⟩

/-- **One call** does one step of the abstract machine. -/
theorem Represents.exec {f : MessageFrame μ} {t : Message} (h : f.Represents t) (M : Codec)
    (c : FrameCall) :
    ∃ f', c.exec M f = .returned (c.step M t).1 f' ∧ f'.Represents (c.step M t).2 := by
  obtain ⟨r, f', hexec, heff⟩ := c.exec_spec M h.parameters.inv
  suffices hstep : r = (c.step M t).1 ∧ f'.Represents (c.step M t).2 from
    ⟨f', hstep.1 ▸ hexec, hstep.2⟩
  cases heff with
  | parameters heff =>
    obtain ⟨hr, href⟩ := h.parameters.effect heff
    exact ⟨hr, h.header, href, h.attachments⟩
  | header setter => exact ⟨rfl, by rw [h.header]; rfl, h.parameters, h.attachments⟩
  | addAttachment name data => exact ⟨rfl, h.header, h.parameters, by rw [h.attachments]; rfl⟩
  | clear => exact ⟨rfl, h.header, .ofConfig _, rfl⟩
  | deserialize hd =>
    obtain ⟨hok, hrep⟩ := h.deserialized hd
    exact ⟨congrArg Reply.bool hok, hrep⟩

/-- What a frame shows of the message it stands for. -/
structure Displays (f : MessageFrame μ) (t : Message) : Prop where
  header : f.header = t.header
  attachments : f.attachments = t.attachments
  find (device param : ByteString) :
    f.find device param = .ok (t.parameters (composeKey device param))
  findFlat (flatKey : FlatKey) : f.findFlat flatKey = .ok (t.parameters flatKey.view)

theorem Represents.displays {f : MessageFrame μ} {t : Message} (h : f.Represents t) :
    f.Displays t where
  header := h.header
  attachments := h.attachments
  find device param := by
    rw [MessageFrame.find, HybridMessageMap.find_eq h.parameters.inv, h.parameters.lookup]
  findFlat flatKey := by
    rw [MessageFrame.findFlat, HybridMessageMap.findFlat_eq h.parameters.inv, h.parameters.lookup]

/-- **One call**, with the objects of the program, does one step of the abstract machine, unless it
receives a buffer in which a pair lacks its string. -/
theorem Represents.execScoped {M : Codec} {throws : ℕ → Bool} {w : World} {f : MessageFrame μ}
    {t : Message} (h : f.Represents t) (hw : Settled w) {c : FrameCall}
    (hnot : ¬c.LacksString M throws (w, f)) :
    ∃ w' f', c.execScoped M throws (w, f) = .returned (c.step M t).1 (w', f') ∧ Settled w' ∧
      f'.Represents (c.step M t).2 := by
  obtain ⟨f', hexec, hrep⟩ := h.exec M c
  obtain ⟨w', hscoped, hw'⟩ := hw.execScoped hnot hexec
  exact ⟨w', f', hscoped, hw', hrep⟩

/-- **A frame is a message.** Construct a frame with any header and any sizing hint, and let any
calls follow: parameter calls in any form, setters of the header, attachments, `clear`, and
receptions of buffers, accepted or rejected, in which no pair announces a string that it lacks.
Every reply is that of the abstract machine, the frame shows the message that the machine has
reached, and the local values of the decoder have come and gone with all of their strings. -/
theorem frame_refines_message (M : Codec) (throws : ℕ → Bool) (header : MessageHeader)
    (config : FrameConfig) (calls : List FrameCall)
    (hrun : Proc.Along (FrameCall.execScoped M throws) (fun c s => ¬c.LacksString M throws s) calls
      ({}, (construct header config : MessageFrame μ))) :
    ∃ (w : World) (f : MessageFrame μ), Proc.execAll (FrameCall.execScoped M throws) calls
        ({}, construct header config) =
        .ok ((Proc.runMachine (FrameCall.step M) calls ⟨header, PartialMap.empty, []⟩).1.map some,
          w, f) ∧
      f.Displays (Proc.runMachine (FrameCall.step M) calls ⟨header, PartialMap.empty, []⟩).2 ∧
      (∀ o ∈ w.objects, o = none) ∧ StringsSound w := by
  have hstep : ∀ (c : FrameCall) (s : World × MessageFrame μ) (t : Message),
      (Settled s.1 ∧ s.2.Represents t) → ¬c.LacksString M throws s →
      ∃ r s', c.execScoped M throws s = .returned r s' ∧ (c.step M t).1 = r ∧
        Settled s'.1 ∧ s'.2.Represents (c.step M t).2 := by
    rintro c ⟨w, f⟩ t ⟨hw, hrep⟩ hnot
    obtain ⟨w', f', hexec, hw', hrep'⟩ := hrep.execScoped hw hnot
    exact ⟨_, (w', f'), hexec, rfl, hw', hrep'⟩
  obtain ⟨rs, ⟨w, f⟩, hexec, hreplies, hw, hrep⟩ := Proc.execAll_simulates_along hstep
    ⟨Settled.empty, represents_construct header config⟩ hrun
  rw [List.forall₂_eq_eq_eq] at hreplies
  rw [← hreplies] at hexec
  exact ⟨w, f, hexec, hrep.displays, hw.objects, hw.stringsSound⟩

/-- A buffer whose parameter section does not convert is rejected; the parameter that was there is
gone, the attachment is not. -/
theorem frame_refines_message_rejected :
    ∃ (w : World) (f : MessageFrame (ListMap ParameterKey ParameterValue)),
      Proc.execAll (FrameCall.execScoped Wire.codec fun _ => false)
        [.parameters (.add [97] [98] (.lvalue .unknown)), .addAttachment [99] [1],
          .deserialize (some [0x93, 0xc0, 0x81, 0xc0, 0xc0, 0x90]), .parameters (.find [97] [98])]
        ({}, construct { timestamp := 0 } { initialReserve := 200 }) =
          .ok ([some .void, some .void, some (.bool false), some (.value none)], w, f) ∧
      f.attachments = [⟨[99], [1]⟩] ∧ f.find [97] [98] = .ok none := by
  have hrun : Proc.Along (FrameCall.execScoped Wire.codec fun _ => false)
      (fun c s => ¬c.LacksString Wire.codec (fun _ => false) s)
      [.parameters (.add [97] [98] (.lvalue .unknown)), .addAttachment [99] [1],
        .deserialize (some [0x93, 0xc0, 0x81, 0xc0, 0xc0, 0x90]), .parameters (.find [97] [98])]
      ({}, (construct { timestamp := 0 } { initialReserve := 200 } :
        MessageFrame (ListMap ParameterKey ParameterValue))) := by
    refine .cons (fun h => h) (.inl ⟨_, rfl⟩) (.cons (fun h => h) (.inl ⟨_, rfl⟩)
      (.cons ?_ (.inl ⟨_, rfl⟩) (.cons (fun h => h) (.inl ⟨_, rfl⟩) trivial)))
    -- the only pair has no key
    rintro ⟨headerObj, parametersObj, attachmentsObj, hs, -, hlacks⟩
    cases hs
    rcases HybridMessageMap.pairLacksString_cons_iff.mp hlacks with ⟨hkey, -⟩ | ⟨hsome, -⟩
    · exact absurd hkey (by decide)
    · exact absurd hsome (by decide)
  obtain ⟨w, f, hexec, hshow, -⟩ := frame_refines_message Wire.codec (fun _ => false)
    { timestamp := 0 } { initialReserve := 200 } _ hrun
  exact ⟨w, f, hexec, hshow.attachments, hshow.find [97] [98]⟩

end MessageFrame

end MsgFrame
