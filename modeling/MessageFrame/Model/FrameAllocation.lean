import MessageFrame.Model.Allocation
import MessageFrame.Model.MessageFrame

/-!
# The frame under memory pressure

The functions of the frame that allocate storage, once more, with allocations that can throw
`std::bad_alloc`. A `FrameMemory` is a frame with the memory of its parameters and the capacity of
its vector of attachments; the allocations of the whole frame are counted together, by the counter
of its parameters.

What can fail here is the object tree of a received buffer, the buffer of the vector of attachments,
the names copied out of the tree and the buffers of the data. Everything the library allocates for
one tree is one allocation, which fails if any of them does.

In `deserialize` the exceptions are caught, except the one that leaves the `noexcept` function
`clear` of the parameters and terminates the program.
-/

namespace MsgFrame

open Msgpack

/-- A frame, the memory of its parameters and the capacity of its vector of attachments. -/
structure FrameMemory (μ : Type) where
  header : MessageHeader
  parameters : Memory μ
  attachments : List Attachment
  attachmentCapacity : ℕ := 0
  deriving DecidableEq

namespace FrameMemory

variable {μ α : Type}

/-- The frame without its memory. -/
def frame (s : FrameMemory μ) : MessageFrame μ where
  header := s.header
  parameters := s.parameters.container
  attachments := s.attachments

/-- Run a procedure on the header. -/
def onHeader : Proc MessageHeader α → Proc (FrameMemory μ) α :=
  Proc.onField FrameMemory.header fun s h => { s with header := h }

/-- Run a procedure on the parameters. -/
def onParameters : Proc (Memory μ) α → Proc (FrameMemory μ) α :=
  Proc.onField FrameMemory.parameters fun s p => { s with parameters := p }

variable [UnorderedMap μ ParameterKey ParameterValue] (fails : ℕ → Bool)

/-- An allocation. -/
def allocate : Proc (FrameMemory μ) Unit := onParameters (Memory.allocate fails)

/-! ### Attachments -/

/-- `attachments.reserve(n)`. -/
def reserveAttachments (n : ℕ) : Proc (FrameMemory μ) Unit := do
  let s ← Proc.get
  if s.attachmentCapacity < n then
    allocate fails
    Proc.modify fun s => { s with attachmentCapacity := n }

/-- `attachments.emplace_back(attach)` and `attachments.push_back(attach)`: a full vector grows
first. -/
def emplaceAttachment (attach : Attachment) : Proc (FrameMemory μ) Unit := do
  let s ← Proc.get
  let size := s.attachments.length
  if s.attachmentCapacity ≤ size then reserveAttachments fails (max (size + 1) (2 * size))
  Proc.modify fun s => { s with attachments := s.attachments ++ [attach] }

/-- `add_attachment`; name and data are moved into the frame. -/
def addAttachment (name data : ByteString) : Proc (FrameMemory μ) Unit :=
  emplaceAttachment fails ⟨name, data⟩

/-- `clear`; the vector of attachments keeps its capacity. -/
def clear : Proc (FrameMemory μ) Unit := do
  onParameters (Memory.clear fails)
  Proc.modify fun s => { s with attachments := [] }

/-! ### The wire -/

variable (M : Codec)

/-- `raw_data.resize(bin_size)` on empty data, and the copy. -/
def copyData (data : ByteString) : Proc (FrameMemory μ) Unit := do
  if data.length ≠ 0 then allocate fails
  Proc.modify fun s =>
    { s with attachments :=
        s.attachments.modify (s.attachments.length - 1) fun a => { a with rawData := data } }

/-- One round of the attachment loop of `deserialize`. -/
def unpackAttachment (obj : Object) : Proc (FrameMemory μ) Unit :=
  match obj with
  | .array pair =>
    if pair.length < 2 then pure ()
    else do
      let nameObj ← Proc.eval (Checked.at pair 0)
      let name ← Proc.orThrow (M.asString nameObj)
      -- the copy of the name
      allocate fails
      emplaceAttachment fails ⟨name, []⟩
      let dataObj ← Proc.eval (Checked.at pair 1)
      match dataObj with
      | .bin data => copyData fails data
      | _ => pure ()
  | _ => pure ()

/-- The third section of `deserialize`. -/
def unpackAttachments (obj : Object) : Proc (FrameMemory μ) Unit := do
  Proc.modify fun s => { s with attachments := [] }
  match obj with
  | .array elems => do
    reserveAttachments fails elems.length
    Proc.forEach (unpackAttachment fails M) elems
  | _ => pure ()

/-- The body of the `try` block of `deserialize`. -/
def deserializeBody (data : ByteString) : Proc (FrameMemory μ) Bool := do
  -- the object tree
  allocate fails
  let root ← Proc.orThrow (M.unpack data)
  match root with
  | .array elems =>
    if elems.length < 3 then pure false
    else do
      let headerObj ← Proc.eval (Checked.at elems 0)
      onHeader (MessageHeader.unpack M headerObj)
      let parametersObj ← Proc.eval (Checked.at elems 1)
      onParameters (Memory.unpack fails M parametersObj)
      let attachmentsObj ← Proc.eval (Checked.at elems 2)
      unpackAttachments fails M attachmentsObj
      pure true
  | _ => pure false

/-- `deserialize`; `none` is a null data pointer. -/
def deserialize (data : Option ByteString) : Proc (FrameMemory μ) Bool :=
  match data with
  | none => pure false
  | some bytes =>
    if bytes.length = 0 then pure false
    else Proc.tryCatch (deserializeBody fails M bytes) (pure false)

end FrameMemory

/-- Execute a call on a frame under memory pressure; the setters of the header allocate nothing. -/
def FrameCall.execIn {μ : Type} [UnorderedMap μ ParameterKey ParameterValue] (fails : ℕ → Bool)
    (M : Codec) : FrameCall → Proc (FrameMemory μ) Reply
  | .parameters call => FrameMemory.onParameters (call.execIn fails)
  | .header setter => do
    FrameMemory.onHeader (Proc.modify (MessageHeader.apply setter))
    pure .void
  | .addAttachment name data => do
    FrameMemory.addAttachment fails name data
    pure .void
  | .clear => do
    FrameMemory.clear fails
    pure .void
  | .deserialize data => do
    let b ← FrameMemory.deserialize fails M data
    pure (.bool b)

end MsgFrame
