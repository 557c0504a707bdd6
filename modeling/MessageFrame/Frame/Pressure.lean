import MessageFrame.Container.Pressure
import MessageFrame.Frame.Message
import MessageFrame.Model.FrameAllocation

/-!
# A frame under memory pressure

Under memory pressure a frame does not always do what the abstract machine of a message does, but
it does little else. `FrameCall.Steps` says what: an insertion may throw, and then it has not
happened; the reception of a buffer may end with `false`, and then with a part of the buffer in the
message (`Message.Starved`): the parameters received so far, or the attachments received so far,
the last of them perhaps without its data. What it may not do is to say `true` and have left
something out. The memory for keys, values and lookups suffices. The destructor of the decoder's
local value is left out, so that what is said of a reception is about buffers in which no pair lacks
its string (`MessageFrame.Scoped.BufferLacksString`).

The functions of the frame are described by triples on the message it stands for (`Stands`), in
which the capacities and the counted allocations do not appear.
-/

namespace MsgFrame

open Msgpack AssocList

/-! ### What may happen to a message -/

/-- A list of attachments that is cut short somewhere: the last one that is left may have lost its
data. -/
inductive CutShort : List Attachment → List Attachment → Prop
  | nothing (rest : List Attachment) : CutShort [] rest
  | name (name data : ByteString) (rest : List Attachment) :
    CutShort [⟨name, []⟩] (⟨name, data⟩ :: rest)
  | cons (attach : Attachment) {as bs : List Attachment} (h : CutShort as bs) :
    CutShort (attach :: as) (attach :: bs)

theorem CutShort.append (l : List Attachment) {as bs : List Attachment} (h : CutShort as bs) :
    CutShort (l ++ as) (l ++ bs) := by
  induction l with
  | nil => exact h
  | cons a l ih => exact ih.cons a

/-- A reception that runs out of memory, and what it leaves: all that was there, or all that was
there but for the header and some of the received parameters, or everything received but for some
of the attachments. -/
inductive Message.Starved (M : Codec) (data : Option ByteString) (t : Message) : Message → Prop
  | untouched : Starved M data t t
  | parameters {headerObj parametersObj attachmentsObj : Object}
      {es : List (ParameterKey × ParameterValue)}
      (hs : MessageFrame.sections M data = some (headerObj, parametersObj, attachmentsObj))
      (hh : MessageHeader.convertible M headerObj = true)
      (hpre : es <+: HybridMessageMap.received M parametersObj) :
    Starved M data t
      { t with
        header := MessageHeader.received M headerObj t.header
        parameters := fun key => es.lookup ⟨key⟩ }
  | attachments {headerObj parametersObj attachmentsObj : Object} {as : List Attachment}
      (hs : MessageFrame.sections M data = some (headerObj, parametersObj, attachmentsObj))
      (hh : MessageHeader.convertible M headerObj = true)
      (hp : HybridMessageMap.convertible M parametersObj = true)
      (hcut : CutShort as (MessageFrame.receivedAttachments M attachmentsObj)) :
    Starved M data t
      { header := MessageHeader.received M headerObj t.header
        parameters := fun key => (HybridMessageMap.received M parametersObj).lookup ⟨key⟩
        attachments := as }

/-- The call inserts a key into the finite map. -/
def MapCall.Inserts (c : MapCall) (f : PartialMap ByteString ParameterValue) : Prop :=
  ∃ key val, c.op = .insert key val ∨ (c.op = .upsert key val ∧ f key = none)

/-- The steps of a message under memory pressure, with the reply, `none` for an exception. -/
inductive FrameCall.Steps (M : Codec) : FrameCall → Message → Option Reply → Message → Prop
  /-- The call does what it does with ample memory. -/
  | done (c : FrameCall) (t : Message) : Steps M c t (some (c.step M t).1) (c.step M t).2
  /-- A parameter is not inserted. -/
  | refusedParameter {call : MapCall} {t : Message} (hinserts : call.Inserts t.parameters) :
    Steps M (.parameters call) t none t
  /-- An attachment is not added. -/
  | refusedAttachment (name data : ByteString) (t : Message) :
    Steps M (.addAttachment name data) t none t
  /-- A buffer is rejected half-way. -/
  | starved {data : Option ByteString} {t t' : Message} (h : t.Starved M data t') :
    Steps M (.deserialize data) t (some (.bool false)) t'

namespace FrameMemory

variable {μ : Type} [UnorderedMap μ ParameterKey ParameterValue] [LawfulUnorderedMap μ]
  {fails : ℕ → Bool} {M : Codec}

/-- The frame stands for the message, in whatever memory. -/
def Stands (t : Message) (s : FrameMemory μ) : Prop := s.frame.Represents t

/-! ### Statements -/

omit [LawfulUnorderedMap μ] in
private theorem allocate_stands (t : Message) :
    Proc.Spec (Stands (μ := μ) t) (allocate fails) (fun _ => Stands t) (Stands t) := by
  intro s hs
  unfold allocate onParameters Proc.onField
  cases hf : fails s.parameters.attempts with
  | true =>
    rw [Memory.allocate_of_fails hf]
    exact hs
  | false =>
    rw [Memory.allocate_of_not_fails hf]
    exact hs

omit [LawfulUnorderedMap μ] in
private theorem reserveAttachments_stands (t : Message) (n : ℕ) :
    Proc.Spec (Stands (μ := μ) t) (reserveAttachments fails n) (fun _ => Stands t) (Stands t) := by
  intro s hs
  unfold reserveAttachments
  rw [Proc.get_bind]
  split_ifs
  · exact (allocate_stands t).bind (fun _ s hs => hs) s hs
  · exact hs

variable (fails) in
omit [LawfulUnorderedMap μ] in
/-- An attachment is appended, or the vector does not grow. -/
private theorem emplaceAttachment_stands (t : Message) (attach : Attachment) :
    Proc.Spec (Stands (μ := μ) t) (emplaceAttachment fails attach)
      (fun _ => Stands { t with attachments := t.attachments ++ [attach] }) (Stands t) := by
  have happend : Proc.Spec (Stands (μ := μ) t)
      (Proc.modify fun s => { s with attachments := s.attachments ++ [attach] })
      (fun _ => Stands { t with attachments := t.attachments ++ [attach] }) (Stands t) :=
    fun s hs => ⟨hs.header, hs.parameters, congrArg (· ++ [attach]) hs.attachments⟩
  intro s hs
  unfold emplaceAttachment
  rw [Proc.get_bind]
  split_ifs
  · exact (reserveAttachments_stands t _).bind (fun _ => happend) s hs
  · exact happend s hs

omit [LawfulUnorderedMap μ] in
/-- The data of the last attachment is copied, or stays empty. -/
private theorem copyData_stands (t : Message) (l : List Attachment) (name data : ByteString) :
    Proc.Spec (Stands (μ := μ) { t with attachments := l ++ [⟨name, []⟩] }) (copyData fails data)
      (fun _ => Stands { t with attachments := l ++ [⟨name, data⟩] })
      (Stands { t with attachments := l ++ [⟨name, []⟩] }) := by
  have hcopy : Proc.Spec (Stands (μ := μ) { t with attachments := l ++ [⟨name, []⟩] })
      (Proc.modify fun s =>
        { s with attachments :=
            s.attachments.modify (s.attachments.length - 1) fun a => { a with rawData := data } })
      (fun _ => Stands { t with attachments := l ++ [⟨name, data⟩] })
      (Stands { t with attachments := l ++ [⟨name, []⟩] }) := by
    intro s hs
    have hattachments : s.attachments = l ++ [⟨name, []⟩] := hs.attachments
    refine ⟨hs.header, hs.parameters, ?_⟩
    change s.attachments.modify (s.attachments.length - 1) _ = _
    rw [hattachments, List.length_append, List.length_singleton, Nat.add_sub_cancel,
      MessageFrame.modify_back]
  intro s hs
  unfold copyData
  split_ifs
  · exact (allocate_stands _).bind (fun _ => hcopy) s hs
  · exact hcopy s hs

/-! ### The attachment section -/

omit [LawfulUnorderedMap μ] in
/-- **One element** is appended or skipped; when it throws, its name may have been appended. -/
private theorem unpackAttachment_stands (t : Message) (obj : Object) :
    Proc.Spec (Stands (μ := μ) t) (unpackAttachment fails M obj)
      (fun _ s => ∃ read, MessageFrame.wireAttachment M obj = some read ∧
        Stands { t with attachments := t.attachments ++ read.toList } s)
      (fun s => Stands t s ∨ ∃ name data,
        MessageFrame.wireAttachment M obj = some (some ⟨name, data⟩) ∧
        Stands { t with attachments := t.attachments ++ [⟨name, []⟩] } s) := by
  have hskip : ∀ s : FrameMemory μ, Stands t s →
      Stands { t with attachments := t.attachments ++ (none : Option Attachment).toList } s := by
    intro s hs
    rwa [Option.toList_none, List.append_nil]
  cases obj with
  | array elems =>
    rcases elems with _ | ⟨nameObj, _ | ⟨dataObj, rest⟩⟩
    · exact fun s hs => ⟨none, rfl, hskip s hs⟩
    · exact fun s hs => ⟨none, rfl, hskip s hs⟩
    have hlen : ¬(nameObj :: dataObj :: rest).length < 2 := by simp
    cases hname : M.asString nameObj with
    | none =>
      intro s hs
      simp only [unpackAttachment, if_neg hlen, Checked.at_zero, Proc.eval_ok_bind, hname]
      exact Or.inl hs
    | some name =>
      rw [MessageFrame.wireAttachment, hname, Option.map_some]
      have hgrown : ∀ {x : Proc (FrameMemory μ) Unit} {Q : Unit → FrameMemory μ → Prop}
          {E : FrameMemory μ → Prop}, (∀ s, Stands t s → E s) →
          Proc.Spec (Stands { t with attachments := t.attachments ++ [⟨name, []⟩] }) x Q E →
          Proc.Spec (Stands t) (do
            allocate fails
            emplaceAttachment fails ⟨name, []⟩
            x) Q E := fun hE hx =>
        ((allocate_stands t).mono (fun _ _ => id) hE).bind fun _ =>
          ((emplaceAttachment_stands fails t _).mono (fun _ _ => id) hE).bind fun _ => hx
      intro s hs
      simp only [unpackAttachment, if_neg hlen, Checked.at_zero, Proc.eval_ok_bind, hname,
        Proc.orThrow_some_bind, Checked.at_succ]
      cases dataObj with
      | bin data =>
        refine hgrown (x := copyData fails data) (fun _ => .inl) ?_ s hs
        exact (copyData_stands t t.attachments name data).mono (fun _ s hs => ⟨_, rfl, hs⟩)
          fun s hs => .inr ⟨name, data, rfl, hs⟩
      | _ =>
        refine hgrown (x := pure ()) (fun _ => .inl) ?_ s hs
        exact fun s hs => ⟨_, rfl, hs⟩
  | _ => exact fun s hs => ⟨none, rfl, hskip s hs⟩

omit [LawfulUnorderedMap μ] in
/-- The loop over the elements. -/
private theorem forEach_unpackAttachment_stands (t : Message) (objs : List Object) :
    Proc.Spec (Stands (μ := μ) t) (Proc.forEach (unpackAttachment fails M) objs)
      (fun _ s => MessageFrame.attachmentsConvertible M (.array objs) = true ∧
        Stands { t with
          attachments := t.attachments ++ MessageFrame.receivedAttachments M (.array objs) } s)
      (fun s => ∃ as, CutShort as (MessageFrame.receivedAttachments M (.array objs)) ∧
        Stands { t with attachments := t.attachments ++ as } s) := by
  induction objs generalizing t with
  | nil =>
    intro s hs
    refine ⟨rfl, ?_⟩
    change Stands { t with attachments := t.attachments ++ [] } s
    rwa [List.append_nil]
  | cons obj objs ih =>
    have hreceived : ∀ {read}, MessageFrame.wireAttachment M obj = some read →
        MessageFrame.receivedAttachments M (.array (obj :: objs)) =
          read.toList ++ MessageFrame.receivedAttachments M (.array objs) := by
      intro read hread
      simp only [MessageFrame.receivedAttachments, MessageFrame.elemsOf, Proc.converted, hread,
        List.flatMap_cons]
    have hconvertible : ∀ {read}, MessageFrame.wireAttachment M obj = some read →
        MessageFrame.attachmentsConvertible M (.array (obj :: objs)) =
          MessageFrame.attachmentsConvertible M (.array objs) := by
      intro read hread
      simp [MessageFrame.attachmentsConvertible, MessageFrame.elemsOf, Proc.converts, hread]
    rw [Proc.forEach_cons]
    refine ((unpackAttachment_stands t obj).mono (fun _ _ => id) ?_).bind fun _ =>
      .of_exists fun read => .of_and fun hread =>
        (ih { t with attachments := t.attachments ++ read.toList }).mono ?_ ?_
    · rintro s (hs | ⟨name, data, hread, hs⟩)
      · refine ⟨[], .nothing _, ?_⟩
        rwa [List.append_nil]
      · rw [hreceived hread]
        exact ⟨_, .name name data _, hs⟩
    · rintro _ s ⟨hall, hs⟩
      rw [hconvertible hread, hreceived hread, ← List.append_assoc]
      exact ⟨hall, hs⟩
    · rintro s ⟨as, hcut, hs⟩
      rw [hreceived hread]
      refine ⟨_, hcut.append _, ?_⟩
      rwa [← List.append_assoc]

omit [LawfulUnorderedMap μ] in
/-- **The section**: the attachments are replaced by the ones received, or by some of them. -/
private theorem unpackAttachments_stands (t : Message) (obj : Object) :
    Proc.Spec (Stands (μ := μ) t) (unpackAttachments fails M obj)
      (fun _ s => MessageFrame.attachmentsConvertible M obj = true ∧
        Stands { t with attachments := MessageFrame.receivedAttachments M obj } s)
      (fun s => ∃ as, CutShort as (MessageFrame.receivedAttachments M obj) ∧
        Stands { t with attachments := as } s) := by
  have hclear : ∀ s : FrameMemory μ, Stands t s →
      Stands { t with attachments := [] } { s with attachments := [] } :=
    fun s hs => ⟨hs.header, hs.parameters, rfl⟩
  intro s hs
  unfold unpackAttachments
  rw [Proc.modify_bind]
  cases obj with
  | array elems =>
    have hreserve : Proc.Spec (Stands (μ := μ) { t with attachments := [] })
        (reserveAttachments fails elems.length) (fun _ => Stands { t with attachments := [] })
        (fun s => ∃ as, CutShort as (MessageFrame.receivedAttachments M (.array elems)) ∧
          Stands { t with attachments := as } s) :=
      (reserveAttachments_stands _ _).mono (fun _ _ => id) fun s hs => ⟨[], .nothing _, hs⟩
    exact hreserve.bind (fun _ => forEach_unpackAttachment_stands _ elems) _ (hclear s hs)
  | _ => exact ⟨rfl, hclear s hs⟩

/-! ### The other two sections -/

omit [LawfulUnorderedMap μ] in
private theorem onHeader_stands (t : Message) (obj : Object) :
    Proc.Spec (Stands (μ := μ) t) (onHeader (MessageHeader.unpack M obj))
      (fun _ s => MessageHeader.convertible M obj = true ∧
        Stands { t with header := MessageHeader.received M obj t.header } s)
      (fun s => MessageHeader.convertible M obj = false ∧
        Stands { t with header := MessageHeader.received M obj t.header } s) := by
  intro s hs
  have hspec := MessageHeader.unpack_spec M obj s.header
  have hheader : s.header = t.header := hs.header
  have hstands : Stands { t with header := MessageHeader.received M obj t.header }
      { s with header := MessageHeader.received M obj s.header } :=
    ⟨congrArg (MessageHeader.received M obj) hheader, hs.parameters, hs.attachments⟩
  cases hconv : MessageHeader.convertible M obj with
  | true =>
    rw [hconv, if_pos rfl] at hspec
    have hx : onHeader (MessageHeader.unpack M obj) s =
      .returned () { s with header := MessageHeader.received M obj s.header } :=
        Proc.onField_of_returned hspec
    rw [hx]
    exact ⟨rfl, hstands⟩
  | false =>
    rw [hconv, if_neg Bool.false_ne_true] at hspec
    have hx : onHeader (MessageHeader.unpack M obj) s =
      .threw { s with header := MessageHeader.received M obj s.header } :=
        Proc.onField_of_threw hspec
    rw [hx]
    exact ⟨rfl, hstands⟩

private theorem onParameters_stands (t : Message) (obj : Object) :
    Proc.Spec (Stands (μ := μ) t) (onParameters (Memory.unpack fails M obj))
      (fun _ s => HybridMessageMap.convertible M obj = true ∧
        Stands { t with
          parameters := fun key => (HybridMessageMap.received M obj).lookup ⟨key⟩ } s)
      (fun s => ∃ es, es <+: HybridMessageMap.received M obj ∧
        Stands { t with parameters := fun key => es.lookup ⟨key⟩ } s) := by
  intro s hs
  have hending := Memory.unpack_ending fails M obj s.parameters
  cases hout : Memory.unpack fails M obj s.parameters with
  | returned a p =>
    rw [hout] at hending
    have hx : onParameters (Memory.unpack fails M obj) s = .returned a { s with parameters := p } :=
      Proc.onField_of_returned hout
    rw [hx]
    cases hending with
    | done hconv h => exact ⟨hconv, hs.header, h.refines, hs.attachments⟩
  | threw p =>
    rw [hout] at hending
    have hx : onParameters (Memory.unpack fails M obj) s = .threw { s with parameters := p } :=
      Proc.onField_of_threw hout
    rw [hx]
    cases hending with
    | stopped hpre h => exact ⟨_, hpre, hs.header, h.refines, hs.attachments⟩
  | undefined e =>
    rw [hout] at hending
    cases hending

/-! ### Reception -/

/-- A buffer with three sections is decoded, or rejected with a part of it decoded. -/
private theorem deserializeSections_stands {data : Option ByteString} (t : Message)
    {headerObj parametersObj attachmentsObj : Object}
    (hs : MessageFrame.sections M data = some (headerObj, parametersObj, attachmentsObj)) :
    Proc.Spec (Stands (μ := μ) t)
      (do
        onHeader (MessageHeader.unpack M headerObj)
        onParameters (Memory.unpack fails M parametersObj)
        unpackAttachments fails M attachmentsObj
        pure true)
      (fun ok s => ∃ t', FrameCall.Steps M (.deserialize data) t (some (.bool ok)) t' ∧ Stands t' s)
      (fun s =>
        ∃ t', FrameCall.Steps M (.deserialize data) t (some (.bool false)) t' ∧ Stands t' s) := by
  have hdone := FrameCall.Steps.done (M := M) (.deserialize data) t
  simp only [FrameCall.step, Message.receive, hs] at hdone
  refine ((onHeader_stands t headerObj).mono (fun _ _ => id) ?_).bind fun _ => .of_and fun hh =>
    ((onParameters_stands _ parametersObj).mono (fun _ _ => id) ?_).bind fun _ => .of_and fun hp =>
      ((unpackAttachments_stands _ attachmentsObj).mono (fun _ _ => id) ?_).bind fun _ =>
        .of_and fun ha => ?_
  · rintro s ⟨hh, hstands⟩
    rw [hh, if_neg Bool.false_ne_true] at hdone
    exact ⟨_, hdone, hstands⟩
  · rintro s ⟨es, hpre, hstands⟩
    exact ⟨_, .starved (.parameters hs hh hpre), hstands⟩
  · rintro s ⟨as, hcut, hstands⟩
    exact ⟨_, .starved (.attachments hs hh hp hcut), hstands⟩
  · intro s hstands
    rw [if_pos hh, if_pos hp, ha] at hdone
    exact ⟨_, hdone, hstands⟩

variable (fails M) in
/-- **Reception under memory pressure** returns, as the relation allows. -/
private theorem deserialize_stands (t : Message) (data : Option ByteString) :
    Proc.Spec (Stands (μ := μ) t) (deserialize fails M data)
      (fun ok s => ∃ t', FrameCall.Steps M (.deserialize data) t (some (.bool ok)) t' ∧ Stands t' s)
      fun _ => False := by
  have hrejected : MessageFrame.sections M data = none → ∀ s : FrameMemory μ, Stands t s →
      ∃ t', FrameCall.Steps M (.deserialize data) t (some (.bool false)) t' ∧ Stands t' s := by
    intro hsections s hs
    have hdone := FrameCall.Steps.done (M := M) (.deserialize data) t
    simp only [FrameCall.step, Message.receive, hsections] at hdone
    exact ⟨t, hdone, hs⟩
  cases data with
  | none => exact hrejected rfl
  | some bytes =>
    rw [deserialize]
    split_ifs with hlen
    · exact hrejected (by rw [MessageFrame.sections, if_pos hlen])
    · refine .tryCatch (E := fun s => ∃ t', FrameCall.Steps M (.deserialize (some bytes)) t
        (some (.bool false)) t' ∧ Stands t' s) ?_ fun s hs => hs
      -- without memory for the object tree nothing is decoded
      have hallocate : Proc.Spec (Stands (μ := μ) t) (allocate fails) (fun _ => Stands t) fun s =>
          ∃ t', FrameCall.Steps M (.deserialize (some bytes)) t (some (.bool false)) t' ∧
            Stands t' s :=
        (allocate_stands t).mono (fun _ _ => id) fun s hs => ⟨t, .starved .untouched, hs⟩
      refine hallocate.bind fun _ => ?_
      cases hunpack : M.unpack bytes with
      | none => exact hrejected (by simp only [MessageFrame.sections, if_neg hlen, hunpack])
      | some root =>
        cases root with
        | array elems =>
          rcases elems with _ | ⟨headerObj, _ | ⟨parametersObj, _ | ⟨attachmentsObj, rest⟩⟩⟩
          · exact hrejected (by simp only [MessageFrame.sections, if_neg hlen, hunpack])
          · exact hrejected (by simp only [MessageFrame.sections, if_neg hlen, hunpack])
          · exact hrejected (by simp only [MessageFrame.sections, if_neg hlen, hunpack])
          · exact deserializeSections_stands t
              (by simp only [MessageFrame.sections, if_neg hlen, hunpack])
        | _ => exact hrejected (by simp only [MessageFrame.sections, if_neg hlen, hunpack])

/-! ### Runs -/

/-- What a call asks of the memory: the conversions of the parameters succeed, and no exception
leaves a `clear`, which would end the program. -/
def Sound (fails : ℕ → Bool) : FrameCall → FrameMemory μ → Prop
  | .parameters call, s =>
    (call.Converts s.parameters.container → Memory.ConversionSucceeds fails s.parameters) ∧
      (call.op = .clear → Memory.Recovers fails s.parameters)
  | .clear, s => Memory.Recovers fails s.parameters
  -- the object tree comes first
  | .deserialize _, s =>
    Memory.Recovers fails { s.parameters with attempts := s.parameters.attempts + 1 }
  | _, _ => True

/-- **One call** does one of the steps that the message may do. -/
private theorem execIn_stands (c : FrameCall) (s : FrameMemory μ) (t : Message) (hs : Stands t s)
    (hsound : Sound fails c s) :
    ∃ r s' t', Proc.Ends (c.execIn fails M) s r s' ∧ c.Steps M t r t' ∧ Stands t' s' := by
  cases c with
  | parameters call =>
    rcases Memory.execIn_completes hs.parameters call hsound.1 hsound.2 with
      ⟨p, hexec, href⟩ | ⟨p, hexec, href, key, val, hop⟩
    · have hcall : onParameters (call.execIn fails) s =
          .returned (call.step t.parameters).1 { s with parameters := p } :=
        Proc.onField_of_returned hexec
      exact ⟨some _, _, _, hcall, .done (.parameters call) t, hs.header, href, hs.attachments⟩
    · have hcall : onParameters (call.execIn fails) s = .threw { s with parameters := p } :=
        Proc.onField_of_threw hexec
      have hinserts : call.Inserts t.parameters := by
        refine ⟨key, val, hop.imp_right fun ⟨hop, hnot⟩ => ⟨hop, ?_⟩⟩
        rwa [← Option.not_isSome_iff_eq_none, ← hs.parameters.mem_keys]
      exact ⟨none, _, t, hcall, .refusedParameter hinserts, hs.header, href, hs.attachments⟩
  | header setter =>
    exact ⟨some _, { s with header := s.header.apply setter }, _, rfl, .done (.header setter) t,
      congrArg (MessageHeader.apply setter) hs.header, hs.parameters, hs.attachments⟩
  | addAttachment name data =>
    have hspec := emplaceAttachment_stands fails t ⟨name, data⟩ s hs
    cases hout : emplaceAttachment fails ⟨name, data⟩ s with
    | returned a s' =>
      rw [hout] at hspec
      exact ⟨some _, s', _, Proc.bind_of_returned hout _, .done (.addAttachment name data) t, hspec⟩
    | threw s' =>
      rw [hout] at hspec
      exact ⟨none, s', t, Proc.bind_of_threw hout _, .refusedAttachment name data t, hspec⟩
    | undefined e => simp only [hout] at hspec
  | clear =>
    obtain ⟨p, hexec, hcleared⟩ := (Memory.clear_completes_iff fails s.parameters).mpr hsound
    have hclear : clear fails s = .returned () { s with parameters := p, attachments := [] } :=
      Proc.bind_of_returned (Proc.onField_of_returned hexec) _
    have hempty : p.container.Refines PartialMap.empty :=
      ⟨hcleared.inv, fun key => by rw [hcleared.empty]; rfl⟩
    exact ⟨some _, _, _, Proc.bind_of_returned hclear _, .done .clear t, hs.header, hempty, rfl⟩
  | deserialize data =>
    have hspec := deserialize_stands fails M t data s hs
    cases hout : deserialize fails M data s with
    | returned ok s' =>
      rw [hout] at hspec
      obtain ⟨t', hsteps, hstands⟩ := hspec
      exact ⟨some _, s', t', Proc.bind_of_returned hout _, hsteps, hstands⟩
    | threw s' => simp only [hout] at hspec
    | undefined e => simp only [hout] at hspec

/-- **A frame under memory pressure is still a message.** Start from any frame that stands for a
message, in any memory, and let any allocations of storage fail except those of its conversions and
the last resort of its `clear`s. Every call then does what it does with ample memory, or throws and
has not happened, or is a reception that replies `false` and has received a part of the buffer; and
the frame goes on as the message that it has reached. The decoder's local value is left out. -/
theorem frame_under_pressure (fails : ℕ → Bool) (M : Codec) {s : FrameMemory μ} {t : Message}
    (h : s.frame.Represents t) (calls : List FrameCall)
    (hrun : Proc.Along (FrameCall.execIn fails M) (Sound fails) calls s) :
    ∃ rs s' t', Proc.execAll (FrameCall.execIn fails M) calls s = .ok (rs, s') ∧
      Proc.Trace (FrameCall.Steps M) calls t rs t' ∧ s'.frame.Displays t' := by
  obtain ⟨rs, s', t', hexec, htrace, hstands⟩ := Proc.execAll_traces
    (R := fun (s : FrameMemory μ) t => Stands t s) execIn_stands h hrun
  exact ⟨rs, s', t', hexec, htrace, hstands.displays⟩

/-- A frame gets an attachment and receives another one, for whose data there is no memory. -/
theorem frame_under_pressure_starved :
    ∃ s' : FrameMemory (ListMap ParameterKey ParameterValue),
      Proc.execAll (FrameCall.execIn (fun i => i == 3) Wire.codec)
        [.addAttachment [98] [2], .deserialize (some [0x93, 0x98, 7, 0, 0, 0, 0, 0, 1, 0, 0x80,
          0x91, 0x92, 0xa1, 99, 0xc4, 1, 1])]
        ⟨{ timestamp := 8 }, ⟨{}, smallCapacity, 0⟩, [], 0⟩ =
          .ok ([some .void, some (.bool false)], s') ∧
      s'.frame.attachments = [⟨[99], []⟩] ∧ s'.frame.find [97] [98] = .ok none := by
  have hrep : (FrameMemory.frame ⟨{ timestamp := 8 }, ⟨{}, smallCapacity, 0⟩, [], 0⟩ :
      MessageFrame (ListMap ParameterKey ParameterValue)).Represents
        ⟨{ timestamp := 8 }, PartialMap.empty, []⟩ :=
    MessageFrame.represents_construct _ {}
  obtain ⟨rs, s', t', hexec, htrace, hshow⟩ := frame_under_pressure (fun i => i == 3) Wire.codec
    hrep [.addAttachment [98] [2], .deserialize (some [0x93, 0x98, 7, 0, 0, 0, 0, 0, 1, 0, 0x80,
      0x91, 0x92, 0xa1, 99, 0xc4, 1, 1])]
    (.cons trivial (.inl ⟨_, rfl⟩) (.cons (.inl le_rfl) (.inl ⟨_, rfl⟩) trivial))
  cases hexec
  exact ⟨_, rfl, rfl, rfl⟩

end FrameMemory

end MsgFrame
