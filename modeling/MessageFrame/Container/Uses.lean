import MessageFrame.Container.Calls
import MessageFrame.Container.Unpack

/-!
# Every way of using a container

`ContainerCall` adds to the calls of the parameter API the remaining public member functions:
`size`, `iterate`, `pack` and `unpack`. A call of `pack` gets the output buffer it appends to,
and its reply is the buffer afterwards; the reply of `iterate` is what its callback is given.

Under the invariant no call has undefined behaviour, and every call keeps the invariant,
whether it returns or throws (`exec_spec`).
-/

namespace MsgFrame

open Msgpack AssocList

/-- The public member functions of a container. -/
inductive ContainerCall where
  | api (call : MapCall)
  | size
  | iterate
  | pack (buffer : ByteString)
  | unpack (obj : Object)

/-- What they return. -/
inductive ContainerReply where
  | api (r : Reply)
  | size (n : ℕ)
  | visited (pairs : List (ByteString × ParameterValue))
  | packed (buffer : ByteString)
  | void
  deriving DecidableEq, Repr

/-- A `const` member that works on an output buffer: the container does not change. -/
def packInto {σ : Type} (x : Proc ByteString Unit) (buffer : ByteString) :
    Proc σ ContainerReply :=
  match x buffer with
  | .returned _ out => pure (.packed out)
  | .threw _ => Proc.throw
  | .undefined e => Proc.eval (.error e)

theorem packInto_spec {σ : Type} {P : σ → Prop} {x : Proc ByteString Unit} (hx : x.Defined)
    (buffer : ByteString) : Proc.Spec P (packInto x buffer) (fun _ => P) P := by
  intro s hs
  unfold packInto
  cases hpack : x buffer with
  | returned _ out => exact hs
  | threw out => exact hs
  | undefined e => exact absurd hpack (hx.ne_undefined buffer e)

section

variable {μ : Type} [UnorderedMap μ ParameterKey ParameterValue] (M : Codec)

/-- Execute a call. -/
def ContainerCall.exec : ContainerCall → Proc (HybridMessageMap μ) ContainerReply
  | .api call => do
    let r ← call.exec
    pure (.api r)
  | .size => do
    let m ← Proc.get
    let n ← Proc.eval m.size
    pure (.size n)
  | .iterate => do
    let m ← Proc.get
    pure (.visited m.visits)
  | .pack buffer => do
    let m ← Proc.get
    packInto (m.pack M) buffer
  | .unpack obj => do
    HybridMessageMap.unpack M obj
    pure .void

end

namespace HybridMessageMap

variable {μ : Type} [UnorderedMap μ ParameterKey ParameterValue] [LawfulUnorderedMap μ]
  {m : HybridMessageMap μ}

/-- **`pack` announces and packs the entries that a traversal visits.** -/
theorem pack_eq (h : m.Inv) (M : Codec) :
    m.pack M = (do
      write (M.packMap m.entries.length.toUInt32)
      Proc.forEach (packEntry M) m.entries) := by
  unfold pack
  rw [size_eq h]
  cases h with
  | vector _ _ => rfl
  | map => rfl

/-- Packing an entry may throw, on a key or a string that is too long, but nothing worse. -/
theorem packEntry_defined (M : Codec) (pair : ParameterKey × ParameterValue) :
    (packEntry M pair).Defined := by
  obtain ⟨key, val⟩ := pair
  refine (Proc.Defined.orThrow _).bind fun bytes => (write_defined bytes).bind fun _ =>
    (write_defined _).bind fun _ => (write_defined _).bind fun _ => ?_
  cases val with
  | string s => exact (Proc.Defined.orThrow _).bind fun bytes => write_defined bytes
  | _ => exact write_defined _

theorem pack_defined (h : m.Inv) (M : Codec) : (m.pack M).Defined := by
  rw [pack_eq h]
  exact (write_defined _).bind fun _ => .forEach _ (packEntry_defined M)

end HybridMessageMap

open HybridMessageMap in
/-- **Every call** keeps the invariant, whether it returns or throws, and has no undefined
behaviour. -/
theorem ContainerCall.exec_spec {μ : Type} [UnorderedMap μ ParameterKey ParameterValue]
    [LawfulUnorderedMap μ] (M : Codec) (c : ContainerCall) :
    Proc.Spec (Inv (μ := μ)) (c.exec M) (fun _ => Inv) Inv := by
  intro m h
  cases c with
  | api call =>
    obtain ⟨r, m', hexec, heff⟩ := call.exec_spec h
    rw [ContainerCall.exec, Proc.bind_of_returned hexec]
    exact heff.inv h
  | size =>
    rw [ContainerCall.exec, Proc.get_bind, size_eq h]
    exact h
  | iterate => exact h
  | pack buffer =>
    rw [ContainerCall.exec, Proc.get_bind]
    exact packInto_spec (pack_defined h M) buffer m h
  | unpack obj =>
    obtain ⟨m', hexec, hunpacked⟩ := unpack_spec M obj m
    rw [ContainerCall.exec]
    cases hconv : convertible M obj with
    | false =>
      rw [hconv, if_neg (by simp)] at hexec
      rw [Proc.bind_of_threw hexec]
      exact hunpacked.inv
    | true =>
      rw [hconv, if_pos rfl] at hexec
      rw [Proc.bind_of_returned hexec]
      exact hunpacked.inv

end MsgFrame
