import MessageFrame.Frame.Message
import MessageFrame.Frame.RoundTrip

/-!
# Frames that exchange buffers

A system of frames, each with a sizing hint of its own, and the buffers that they have sent. Any
frame may be called, serialized, moved into another one, or receive any of the buffers, in any
order: a buffer may be received late, never, several times or by several frames, and between two of
its own buffers a frame may receive one that no frame has sent.

`network_refines` says what all of this amounts to: each frame is a message, a buffer is the message
that its sender was *when it sent it*, and to receive it is to become that message. The decoders
keep their local values as objects of the program. What a frame has sent never makes the destructor
of such a value undefined (`Conveys.not_lacks`); a buffer from elsewhere may, and is left out if it
does.

A library may read a double back as another one that it regards as the same; the replies are those
of the abstract machine up to this relation, however many hops a value has made.
-/

namespace MsgFrame

open Msgpack AssocList

/-! ### Messages up to the doubles in them -/

section Same

variable {same : Double → Double → Prop}

namespace ParameterValue

theorem SameValue.refl (hrefl : ∀ d, same d d) (v : ParameterValue) : SameValue same v v := by
  cases v with
  | unknown => exact .unknown
  | int64 n => exact .int64 n
  | double d => exact .double (hrefl d)
  | string s => exact .string s
  | bool b => exact .bool b

theorem SameValue.trans (htrans : ∀ d d' d'', same d d' → same d' d'' → same d d'')
    {u v w : ParameterValue} (h : SameValue same u v) (h' : SameValue same v w) :
    SameValue same u w := by
  cases h with
  | double hd =>
    cases h' with
    | double hd' => exact .double (htrans _ _ _ hd hd')
  | unknown | int64 _ | string _ | bool _ => exact h'

end ParameterValue

/-- The same reply, up to the doubles in it. -/
inductive Reply.Same (same : Double → Double → Prop) : Reply → Reply → Prop
  | void : Same same .void .void
  | bool (b : Bool) : Same same (.bool b) (.bool b)
  | value {v w : Option ParameterValue} : Option.Rel (ParameterValue.SameValue same) v w →
    Same same (.value v) (.value w)

/-- The same message, up to the doubles in it. -/
structure Message.Same (same : Double → Double → Prop) (t u : Message) : Prop where
  header : t.header = u.header
  parameters : PartialMap.Rel (ParameterValue.SameValue same) t.parameters u.parameters
  attachments : t.attachments = u.attachments

/-- The operations of a finite map do not tell the same values apart. -/
theorem MapOp.step_same (hrefl : ∀ d, same d d) {f g : PartialMap ByteString ParameterValue}
    (h : f.Rel (ParameterValue.SameValue same) g) (op : MapOp) :
    Reply.Same same (op.step f).1 (op.step g).1 ∧
      PartialMap.Rel (ParameterValue.SameValue same) (op.step f).2 (op.step g).2 := by
  cases op with
  | insert key val => exact ⟨.void, h.insertNew key (.refl hrefl val)⟩
  | upsert key val => exact ⟨.void, h.upsert key (.refl hrefl val)⟩
  | replace key val =>
    refine ⟨?_, h.replace key (.refl hrefl val)⟩
    simp only [MapOp.step, h.isSome_eq key]
    exact .bool _
  | lookup key => exact ⟨.value (h key), h⟩
  | clear => exact ⟨.void, .refl (.refl hrefl) _⟩

/-- Nor does the reception of a buffer. -/
theorem Message.Same.receive (hrefl : ∀ d, same d d) {t u : Message} (h : t.Same same u)
    (M : Codec) (data : Option ByteString) :
    (t.receive M data).1 = (u.receive M data).1 ∧
      Message.Same same (t.receive M data).2 (u.receive M data).2 := by
  have hheader : ∀ obj, MessageHeader.received M obj t.header =
      MessageHeader.received M obj u.header := fun obj => by rw [h.header]
  have hrel : ∀ f : PartialMap ByteString ParameterValue,
      f.Rel (ParameterValue.SameValue same) f := .refl (.refl hrefl)
  unfold Message.receive
  split
  · exact ⟨rfl, h⟩
  · split_ifs
    · exact ⟨rfl, hheader _, hrel _, rfl⟩
    · exact ⟨rfl, hheader _, hrel _, h.attachments⟩
    · exact ⟨rfl, hheader _, h.parameters, h.attachments⟩

/-- The calls on a message do not tell the same values apart. -/
theorem FrameCall.step_same (hrefl : ∀ d, same d d) {t u : Message} (h : t.Same same u)
    (M : Codec) (c : FrameCall) :
    Reply.Same same (c.step M t).1 (c.step M u).1 ∧
      Message.Same same (c.step M t).2 (c.step M u).2 := by
  cases c with
  | parameters call =>
    obtain ⟨hreply, hparams⟩ := call.op.step_same hrefl h.parameters
    exact ⟨hreply, h.header, hparams, h.attachments⟩
  | header setter =>
    refine ⟨.void, ?_, h.parameters, h.attachments⟩
    simp only [FrameCall.step, h.header]
  | addAttachment name data =>
    refine ⟨.void, h.header, h.parameters, ?_⟩
    simp only [FrameCall.step, h.attachments]
  | clear => exact ⟨.void, h.header, .refl (.refl hrefl) _, rfl⟩
  | deserialize data =>
    obtain ⟨hok, hsame⟩ := h.receive hrefl M data
    refine ⟨?_, hsame⟩
    simp only [FrameCall.step, hok]
    exact .bool _

end Same

/-! ### The system -/

/-- The frames of a system, the buffers that have been sent, and the objects of the program: the
local values of the decoders. -/
structure Network (μ : Type) where
  frames : ℕ → MessageFrame μ
  sent : List ByteString := []
  objects : World := {}

/-- What happens in a system. -/
inductive NetworkCall where
  /-- A frame is called. To receive a buffer that no frame has sent is one of the calls. -/
  | call (i : ℕ) (c : FrameCall)
  | header (i : ℕ)
  | attachments (i : ℕ)
  /-- A frame is serialized and the buffer is sent. -/
  | send (i : ℕ)
  /-- The frame `i` receives the buffer that was sent as number `k`. -/
  | deliver (i k : ℕ)
  /-- A frame is assigned to from another one. -/
  | move (target source : ℕ)

/-- What is returned to the client. -/
inductive NetworkReply where
  | api (r : Reply)
  | header (h : MessageHeader)
  | attachments (l : List Attachment)
  | void

section

variable {μ : Type} [UnorderedMap μ ParameterKey ParameterValue] (M : Codec)

/-- The frame replaced, and the objects. -/
def Network.put (s : Network μ) (i : ℕ) (p : World × MessageFrame μ) : Network μ :=
  { s with objects := p.1, frames := Function.update s.frames i p.2 }

/-- Run a procedure on the objects and a frame. -/
def Network.onFrame {α : Type} (i : ℕ) : Proc (World × MessageFrame μ) α → Proc (Network μ) α :=
  Proc.onField (fun s => (s.objects, s.frames i)) fun s p => s.put i p

/-- Execute what happens. There is memory for every string. -/
def NetworkCall.exec : NetworkCall → Proc (Network μ) NetworkReply
  | .call i c => do
    let r ← Network.onFrame i (c.execScoped M fun _ => false)
    pure (.api r)
  | .header i => do
    let s ← Proc.get
    pure (.header (s.frames i).header)
  | .attachments i => do
    let s ← Proc.get
    pure (.attachments (s.frames i).attachments)
  | .send i => do
    let s ← Proc.get
    match (s.frames i).serialize M [] with
    | .returned _ bytes =>
      Proc.modify fun s => { s with sent := s.sent ++ [bytes] }
      pure .void
    | .threw _ => Proc.throw
    | .undefined e => Proc.eval (.error e)
  | .deliver i k => do
    let s ← Proc.get
    let b ← Network.onFrame i (MessageFrame.Scoped.deserialize M (fun _ => false) s.sent[k]?)
    pure (.api (.bool b))
  | .move target source => do
    Proc.modify fun s =>
      let p := MessageFrame.moveAssign (s.frames target) (s.frames source)
      { s with frames := Function.update (Function.update s.frames source p.2) target p.1 }
    pure .void

/-- A frame that is sent fits the wire, and one that is moved from is another one, in vector
mode. In a buffer from elsewhere no pair lacks its string. -/
def NetworkCall.Sound : NetworkCall → Network μ → Prop
  | .call i c, s => ¬c.LacksString M (fun _ => false) (s.objects, s.frames i)
  | .send i, s => MessageFrame.FitsWire (s.frames i)
  | .move target source, s =>
    target ≠ source ∧ (s.frames source).parameters.isVectorMode = true
  | _, _ => True

end

/-- The abstract system: messages, and the messages that have been sent. -/
structure Exchange where
  messages : ℕ → Message
  sent : List Message := []

/-- One step of the abstract system. -/
def NetworkCall.step (M : Codec) : NetworkCall → Exchange → NetworkReply × Exchange
  | .call i c, t =>
    (.api (c.step M (t.messages i)).1,
      { t with messages := Function.update t.messages i (c.step M (t.messages i)).2 })
  | .header i, t => (.header (t.messages i).header, t)
  | .attachments i, t => (.attachments (t.messages i).attachments, t)
  | .send i, t => (.void, { t with sent := t.sent ++ [t.messages i] })
  | .deliver i k, t =>
    match t.sent[k]? with
    | some u => (.api (.bool true), { t with messages := Function.update t.messages i u })
    | none => (.api (.bool false), t)
  | .move target source, t =>
    let u := t.messages source
    (.void, { t with messages := Function.update (Function.update t.messages source
      ⟨u.header, PartialMap.empty, []⟩) target u })

/-! ### The system refines the exchange of messages -/

/-- The same reply, up to the doubles in it. -/
inductive NetworkReply.Same (same : Double → Double → Prop) : NetworkReply → NetworkReply → Prop
  | api {r r' : Reply} : Reply.Same same r r' → Same same (.api r) (.api r')
  | header (h : MessageHeader) : Same same (.header h) (.header h)
  | attachments (l : List Attachment) : Same same (.attachments l) (.attachments l)
  | void : Same same .void .void

variable {μ : Type} [UnorderedMap μ ParameterKey ParameterValue] {M : Codec}
  {same : Double → Double → Prop}

namespace MessageFrame

/-- The frame is valid and stands for the message, up to the doubles in it. -/
structure Follows (same : Double → Double → Prop) (t : Message) (f : MessageFrame μ) : Prop where
  inv : f.parameters.Inv
  same : t.Same same f.message

theorem Represents.follows {f : MessageFrame μ} {t u : Message} (hf : f.Represents u)
    (h : t.Same same u) : f.Follows same t := by
  refine ⟨hf.parameters.inv, h.header.trans hf.header.symm, fun key => ?_,
    h.attachments.trans hf.attachments.symm⟩
  have hlookup : f.message.parameters key = u.parameters key := hf.parameters.lookup key
  rw [hlookup]
  exact h.parameters key

end MessageFrame

/-- Whoever receives the buffer becomes the message. -/
def Conveys (μ : Type) [UnorderedMap μ ParameterKey ParameterValue] (M : Codec)
    (same : Double → Double → Prop) (bytes : ByteString) (t : Message) : Prop :=
  ∀ r : MessageFrame μ, ∃ r', MessageFrame.deserialize M (some bytes) r = .returned true r' ∧
    r'.Follows same t

/-- Every frame follows its message, every buffer that has been sent conveys its own, and no local
value is left. -/
structure Network.Follows (M : Codec) (same : Double → Double → Prop) (s : Network μ)
    (t : Exchange) : Prop where
  frames (i : ℕ) : (s.frames i).Follows same (t.messages i)
  sent : List.Forall₂ (Conveys μ M same) s.sent t.sent
  objects : Settled s.objects

namespace Network.Follows

variable {s : Network μ} {t : Exchange}

/-- One frame is replaced. -/
theorem put (h : s.Follows M same t) (i : ℕ) {w : World} {f : MessageFrame μ} {u : Message}
    (hw : Settled w) (hf : f.Follows same u) : (s.put i (w, f)).Follows M same
      { t with messages := Function.update t.messages i u } := by
  refine ⟨fun j => ?_, h.sent, hw⟩
  change (Function.update s.frames i f j).Follows same (Function.update t.messages i u j)
  by_cases hj : j = i
  · subst hj
    rw [Function.update_self, Function.update_self]
    exact hf
  · rw [Function.update_of_ne hj, Function.update_of_ne hj]
    exact h.frames j

end Network.Follows

variable [LawfulUnorderedMap μ]

/-- What a frame sends conveys the message that the frame stands for. -/
theorem MessageFrame.Follows.conveys (hM : M.Lawful same)
    (htrans : ∀ d d' d'', same d d' → same d' d'' → same d d'') {f : MessageFrame μ} {t : Message}
    (h : f.Follows same t) (hfit : f.FitsWire) :
    ∃ bytes, f.serialize M [] = .returned () bytes ∧ Conveys μ M same bytes t := by
  obtain ⟨bytes, -, hser, -, -⟩ := serialize_packs hM h.inv hfit
  refine ⟨bytes, hser [], fun r => ?_⟩
  obtain ⟨bytes', pairs, r', l, hser', -, -, hdes, hholds⟩ :=
    serialize_deserialize hM h.inv hfit r
  obtain rfl : bytes' = bytes := by
    have hsame := (hser' []).symm.trans (hser [])
    injection hsame
  refine ⟨r', hdes, hholds.inv, h.same.header.trans hholds.header.symm, fun key => ?_,
    h.same.attachments.trans hholds.attachments.symm⟩
  have hsent : Option.Rel (ParameterValue.SameValue same) (f.message.parameters key)
      (r'.message.parameters key) := by
    change Option.Rel _ (f.parameters.entries.lookup ⟨key⟩) (r'.parameters.entries.lookup ⟨key⟩)
    rw [hholds.lookup]
    exact HybridMessageMap.lookup_rel hholds.entries ⟨key⟩
  have hkept := h.same.parameters key
  generalize t.parameters key = v, f.message.parameters key = w at hkept hsent
  cases hkept with
  | none => exact hsent
  | some hv =>
    generalize r'.message.parameters key = x at hsent
    cases hsent with
    | some hw => exact .some (hv.trans htrans hw)

/-- In a buffer that every frame accepts no pair lacks its string. -/
theorem Conveys.not_lacks {bytes : ByteString} {t : Message} (h : Conveys μ M same bytes t)
    (r : MessageFrame μ) (k : ℕ) :
    ¬MessageFrame.Scoped.BufferLacksString M (fun _ => false) k (some bytes) := by
  intro hlacks
  obtain ⟨r', hdes, -⟩ := h r
  obtain ⟨ok, f', hexec, hd⟩ := MessageFrame.deserialize_spec M (some bytes) r
  rw [hdes] at hexec
  obtain ⟨rfl, -⟩ := Outcome.returned.inj hexec
  have haccepts := hd.ok_eq
  rw [hlacks.rejected fun _ => rfl] at haccepts
  cases haccepts

namespace Network.Follows

variable {s : Network μ} {t : Exchange}

/-- A frame that is called follows the message that is. -/
theorem call (hrefl : ∀ d, same d d) (h : s.Follows M same t) (i : ℕ) {c : FrameCall}
    (hc : (NetworkCall.call i c).Sound M s) :
    ∃ r s', (NetworkCall.call i c).exec M s = .returned r s' ∧
      NetworkReply.Same same ((NetworkCall.call i c).step M t).1 r ∧
      s'.Follows M same ((NetworkCall.call i c).step M t).2 := by
  have hi := h.frames i
  obtain ⟨w', f', hexec, hw', hrep⟩ :=
    (MessageFrame.represents_message hi.inv).execScoped h.objects hc
  obtain ⟨hreply, hsame⟩ := c.step_same hrefl hi.same M
  have hon : Network.onFrame i (c.execScoped M fun _ => false) s =
      .returned (c.step M (s.frames i).message).1 (s.put i (w', f')) :=
    Proc.onField_of_returned hexec
  exact ⟨_, _, Proc.bind_of_returned hon _, .api hreply, h.put i hw' (hrep.follows hsame)⟩

/-- What a frame sends conveys the message that it follows. -/
theorem send (hM : M.Lawful same)
    (htrans : ∀ d d' d'', same d d' → same d' d'' → same d d'') (h : s.Follows M same t) {i : ℕ}
    (hfit : (s.frames i).FitsWire) :
    ∃ s', (NetworkCall.send i).exec M s = .returned .void s' ∧
      s'.Follows M same ((NetworkCall.send i).step M t).2 := by
  obtain ⟨bytes, hser, hconveys⟩ := (h.frames i).conveys hM htrans hfit
  refine ⟨{ s with sent := s.sent ++ [bytes] }, ?_, h.frames,
    List.rel_append h.sent (.cons hconveys .nil), h.objects⟩
  rw [NetworkCall.exec, Proc.get_bind, hser]
  rfl

/-- A buffer that has been sent is accepted, and the receiver becomes the message it conveys. A
number under which nothing has been sent gives a null pointer, which is rejected. -/
theorem deliver (h : s.Follows M same t) (i k : ℕ) :
    ∃ r s', (NetworkCall.deliver i k).exec M s = .returned r s' ∧
      NetworkReply.Same same ((NetworkCall.deliver i k).step M t).1 r ∧
      s'.Follows M same ((NetworkCall.deliver i k).step M t).2 := by
  have hlen : s.sent.length = t.sent.length := h.sent.length_eq
  have hexec : ∀ {data ok p}, s.sent[k]? = data →
      MessageFrame.Scoped.deserialize M (fun _ => false) data (s.objects, s.frames i) =
        .returned ok p →
      (NetworkCall.deliver i k).exec M s = .returned (.api (.bool ok)) (s.put i p) := by
    intro data ok p hdata hdes
    have hon : Network.onFrame i (MessageFrame.Scoped.deserialize M (fun _ => false) data) s =
        .returned ok (s.put i p) := Proc.onField_of_returned hdes
    rw [NetworkCall.exec, Proc.get_bind, hdata, Proc.bind_of_returned hon]
    rfl
  cases hk : t.sent[k]? with
  | none =>
    have hnone : s.sent[k]? = none := by
      rw [List.getElem?_eq_none_iff] at hk ⊢
      rwa [hlen]
    refine ⟨_, _, hexec hnone rfl, ?_, ?_⟩
    · simp only [NetworkCall.step, hk]
      exact .api (.bool false)
    · simp only [NetworkCall.step, hk, Network.put, Function.update_eq_self]
      exact h
  | some u =>
    obtain ⟨hlt, rfl⟩ := List.getElem?_eq_some_iff.mp hk
    have hlt' : k < s.sent.length := hlen ▸ hlt
    have hconveys := h.sent.get hlt' hlt
    obtain ⟨f', hdes, hfollows⟩ := hconveys (s.frames i)
    obtain ⟨w', hscoped, hw'⟩ := h.objects.accompanies
      (MessageFrame.Scoped.deserialize_accompanies (hconveys.not_lacks (s.frames i) _))
      (MessageFrame.Scoped.keeps_deserialize _) hdes
    refine ⟨_, _, hexec (List.getElem?_eq_getElem hlt') hscoped, ?_, ?_⟩
    · simp only [NetworkCall.step, hk]
      exact .api (.bool true)
    · simp only [NetworkCall.step, hk]
      exact h.put i hw' hfollows

omit [LawfulUnorderedMap μ] in
/-- A frame that is moved hands its message over, but for the header, which it keeps. -/
theorem move (h : s.Follows M same t) (target : ℕ) {source : ℕ}
    (hmode : (s.frames source).parameters.isVectorMode = true) :
    ∃ s', (NetworkCall.move target source).exec M s = .returned .void s' ∧
      s'.Follows M same ((NetworkCall.move target source).step M t).2 := by
  have hf := h.frames source
  have htarget : (MessageFrame.moveAssign (s.frames target) (s.frames source)).1.Follows same
      (t.messages source) :=
    ⟨hf.inv.with_cfg _, hf.same.header, hf.same.parameters, hf.same.attachments⟩
  have hsource : (MessageFrame.moveAssign (s.frames target) (s.frames source)).2.Follows same
      ⟨(t.messages source).header, PartialMap.empty, []⟩ := by
    refine ⟨HybridMessageMap.moveConstruct_snd_inv hmode, hf.same.header, fun key => ?_, rfl⟩
    have hempty : (HybridMessageMap.moveConstruct (s.frames source).parameters).2.entries = [] :=
      if_pos hmode
    change Option.Rel _ none ((HybridMessageMap.moveConstruct
      (s.frames source).parameters).2.entries.lookup ⟨key⟩)
    rw [hempty]
    exact .none
  exact ⟨_, rfl, (h.put source h.objects hsource).put target h.objects htarget⟩

/-- **One step** of the system does one step of the exchange. -/
theorem exec (hM : M.Lawful same) (hrefl : ∀ d, same d d)
    (htrans : ∀ d d' d'', same d d' → same d' d'' → same d d'') (h : s.Follows M same t)
    {c : NetworkCall} (hc : c.Sound M s) :
    ∃ r s', c.exec M s = .returned r s' ∧ NetworkReply.Same same (c.step M t).1 r ∧
      s'.Follows M same (c.step M t).2 := by
  cases c with
  | call i c => exact h.call hrefl i hc
  | header i =>
    refine ⟨_, s, rfl, ?_, h⟩
    rw [show (s.frames i).header = (t.messages i).header from (h.frames i).same.header.symm]
    exact .header _
  | attachments i =>
    refine ⟨_, s, rfl, ?_, h⟩
    rw [show (s.frames i).attachments = (t.messages i).attachments from
      (h.frames i).same.attachments.symm]
    exact .attachments _
  | send i =>
    obtain ⟨s', hexec, hfollows⟩ := h.send hM htrans hc
    exact ⟨_, s', hexec, .void, hfollows⟩
  | deliver i k => exact h.deliver i k
  | move target source =>
    obtain ⟨s', hexec, hfollows⟩ := h.move target hc.2
    exact ⟨_, s', hexec, .void, hfollows⟩

end Network.Follows

/-- **Frames that exchange buffers exchange messages.** Construct frames with any headers and any
sizing hints, and let any calls, sends, receptions and moves follow, in any order. If what is sent
fits the wire, frames are moved from in vector mode only, and no buffer from elsewhere has a pair
that lacks its string, then every reply, up to the doubles in it, is that of the abstract system: it
does not depend on the hints, nor on how often, how late or in which order the buffers were
received. The local values of the decoders have come and gone with all of their strings. -/
theorem network_refines (hM : M.Lawful same) (hrefl : ∀ d, same d d)
    (htrans : ∀ d d' d'', same d d' → same d' d'' → same d d'') (headers : ℕ → MessageHeader)
    (configs : ℕ → FrameConfig) (calls : List NetworkCall)
    (hrun : Proc.Along (NetworkCall.exec M) (NetworkCall.Sound M) calls
      ({ frames := fun i => .construct (headers i) (configs i) } : Network μ)) :
    ∃ (rs : List NetworkReply) (s : Network μ), Proc.execAll (NetworkCall.exec M) calls
        { frames := fun i => .construct (headers i) (configs i) } = .ok (rs.map some, s) ∧
      List.Forall₂ (NetworkReply.Same same) (Proc.runMachine (NetworkCall.step M) calls
        ⟨fun i => ⟨headers i, PartialMap.empty, []⟩, []⟩).1 rs ∧
      (∀ o ∈ s.objects.objects, o = none) ∧ StringsSound s.objects := by
  have hinit : Network.Follows M same
      ({ frames := fun i => .construct (headers i) (configs i) } : Network μ)
      ⟨fun i => ⟨headers i, PartialMap.empty, []⟩, []⟩ :=
    ⟨fun i => (MessageFrame.represents_construct (headers i) (configs i)).follows
      ⟨rfl, .refl (.refl hrefl) _, rfl⟩, .nil, .empty⟩
  have hstep : ∀ (c : NetworkCall) (s : Network μ) (t : Exchange), s.Follows M same t →
      c.Sound M s → ∃ r s', c.exec M s = .returned r s' ∧ NetworkReply.Same same (c.step M t).1 r ∧
        s'.Follows M same (c.step M t).2 := fun c s t h hc => h.exec hM hrefl htrans hc
  obtain ⟨rs, s, hexec, hreplies, hfollows⟩ := Proc.execAll_simulates_along hstep hinit hrun
  exact ⟨rs, s, hexec, hreplies, hfollows.objects.objects, hfollows.objects.stringsSound⟩

/-- A frame is sent and cleared; only then another one, with a hint, receives the buffer, after one
that it rejects. -/
theorem network_refines_late :
    ∃ (rs : List NetworkReply) (s : Network (ListMap ParameterKey ParameterValue)),
      Proc.execAll (NetworkCall.exec Wire.codec)
        [.call 0 (.addAttachment [99] [1]), .send 0, .call 0 .clear,
          .call 1 (.deserialize (some [0x93])), .deliver 1 0, .attachments 1]
        { frames := fun i => .construct { timestamp := 0 } { initialReserve := 200 * i } } =
          .ok (rs.map some, s) ∧
      List.Forall₂ (NetworkReply.Same Eq) [.api .void, .void, .api .void, .api (.bool false),
        .api (.bool true), .attachments [⟨[99], [1]⟩]] rs ∧
      (∀ o ∈ s.objects.objects, o = none) ∧ StringsSound s.objects := by
  refine network_refines Wire.lawful (fun _ => rfl) (fun _ _ _ => Eq.trans)
    (fun _ => { timestamp := 0 }) (fun i => { initialReserve := 200 * i }) _ ?_
  refine .cons (fun h => h) (.inl ⟨_, rfl⟩) (.cons ?_ (.inl ⟨_, rfl⟩) (.cons (fun h => h)
    (.inl ⟨_, rfl⟩) (.cons ?_ (.inl ⟨_, rfl⟩) (.cons trivial (.inl ⟨_, rfl⟩) (.cons trivial
      (.inl ⟨_, rfl⟩) trivial)))))
  · refine MessageFrame.FitsWire.of_entries (by decide) ?_ (by decide) ?_
    · exact fun e he => absurd he List.not_mem_nil
    · intro a ha
      obtain rfl := List.mem_singleton.mp ha
      exact ⟨by decide, by decide⟩
  · -- the buffer from elsewhere has no sections
    rintro ⟨headerObj, parametersObj, attachmentsObj, hs, -⟩
    cases hs

end MsgFrame
