import MessageFrame.Model.MessageFrame
import MessageFrame.Model.TaggedUnion

/-!
# Decoding with the local value as an object

The decoder of the parameters, once more, with the `ParameterValue` that it unpacks each pair into
as an object of the program, next to the container or the frame. The object is constructed in every
round of the loop, unpacked into, moved from, and destroyed: at the end of the round, or while an
exception of `unpack` or of the container unwinds the stack.

The argument `throws` says for each address whether the construction of a string in the object at
that address runs out of memory.
-/

namespace MsgFrame

open Msgpack

/-! ### Objects next to a container or a frame -/

namespace Beside

variable {σ α : Type}

/-- Statements about the objects of the program. -/
def onObjects (x : Proc World α) : Proc (World × σ) α :=
  Proc.onField Prod.fst (fun s w => (w, s.2)) x

/-- Statements about the container or the frame. -/
def onMember (x : Proc σ α) : Proc (World × σ) α :=
  Proc.onField Prod.snd (fun s t => (s.1, t)) x

/-- A block with the local value `val`: its destructor runs at the end of the block, and when an
exception leaves the block. -/
def withLocal (val : ℕ) (block : Proc (World × σ) Unit) : Proc (World × σ) Unit := do
  Proc.tryCatch block do
    onObjects (ValueObject.destroy val)
    Proc.throw
  onObjects (ValueObject.destroy val)

end Beside

open Beside

variable {μ : Type} [UnorderedMap μ ParameterKey ParameterValue] (M : Codec) (throws : ℕ → Bool)

namespace HybridMessageMap.Scoped

/-- One round of the loop of `unpack`. -/
def unpackEntry (pair : Object × Object) : Proc (World × HybridMessageMap μ) Unit := do
  let keyView ← Proc.orThrow (M.asStringView pair.1)
  -- `ParameterValue val;`
  let val ← onObjects (ValueObject.ofPayload .unknown false)
  withLocal val do
    onObjects (ValueObject.unpack M val pair.2 (throws val))
    -- the entry is move-constructed from `val`, which is reset
    let moved ← onObjects (ValueObject.load val)
    onMember do
      let m ← Proc.get
      if m.isVectorMode then emplaceBack ⟨keyView⟩ moved
      else onMap (UnorderedMap.emplace · ⟨keyView⟩ moved)
    onObjects (ValueObject.reset val)

/-- `unpack`. -/
def unpack (obj : Object) : Proc (World × HybridMessageMap μ) Unit := do
  onMember clear
  match obj with
  | .map pairs =>
    onMember do
      if smallCapacity < pairs.length then
        Proc.modify fun m =>
          if m.mapStorage.isNone then { m with mapStorage := some UnorderedMap.empty } else m
        onMap (UnorderedMap.reserve · pairs.length)
        Proc.modify fun m => { m with isVectorMode := false }
      else Proc.modify fun m => { m with isVectorMode := true }
    Proc.forEach (unpackEntry M throws) pairs
  | _ => pure ()

end HybridMessageMap.Scoped

namespace MessageFrame.Scoped

/-- Run a procedure on the objects and the parameters. -/
def onParameters {α : Type} (x : Proc (World × HybridMessageMap μ) α) :
    Proc (World × MessageFrame μ) α :=
  Proc.onField (fun s => (s.1, s.2.parameters)) (fun s p => (p.1, { s.2 with parameters := p.2 })) x

/-- The body of the `try` block of `deserialize`. -/
def deserializeBody (data : ByteString) : Proc (World × MessageFrame μ) Bool := do
  let root ← Proc.orThrow (M.unpack data)
  match root with
  | .array elems =>
    if elems.length < 3 then pure false
    else do
      let headerObj ← Proc.eval (Checked.at elems 0)
      onMember (onHeader (MessageHeader.unpack M headerObj))
      let parametersObj ← Proc.eval (Checked.at elems 1)
      onParameters (HybridMessageMap.Scoped.unpack M throws parametersObj)
      let attachmentsObj ← Proc.eval (Checked.at elems 2)
      onMember (unpackAttachments M attachmentsObj)
      pure true
  | _ => pure false

/-- `deserialize`; `none` is a null data pointer. -/
def deserialize (data : Option ByteString) : Proc (World × MessageFrame μ) Bool :=
  match data with
  | none => pure false
  | some bytes =>
    if bytes.length = 0 then pure false
    else Proc.tryCatch (deserializeBody M throws bytes) (pure false)

end MessageFrame.Scoped

/-- Execute a call on a frame, with the objects of the program. -/
def FrameCall.execScoped : FrameCall → Proc (World × MessageFrame μ) Reply
  | .deserialize data => do
    let b ← MessageFrame.Scoped.deserialize M throws data
    pure (.bool b)
  | call => onMember (call.exec M)

end MsgFrame
