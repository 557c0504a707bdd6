import MessageFrame.ForMathlib.Proc
import MessageFrame.MessagePack.Basic

/-!
# Shared types: keys, attachments, configuration and the output buffer

The parameter container has a single string key per entry: device and parameter name joined
by the Unit Separator `0x1F`. A key is composed in three places of the source — the
`ParameterKey` constructor, `FlatKey::compose` and the map branch of `find` — and compared
piece by piece, without composing it, in three more (`keyMatches`).

`FlatKey` can only be obtained from `FlatKey.compose`; the structure carries that fact, so a
flat key without a separator cannot be built. A `ParameterKey` can hold any byte string: the
keys read off the wire are stored as they come.
-/

namespace MsgFrame

open Msgpack

/-- ASCII Unit Separator, `'\x1F'`. -/
def separator : UInt8 := 0x1F

/-- The string `device + 0x1F + param`. -/
def composeKey (device param : ByteString) : ByteString := device ++ separator :: param

/-- The key of a container entry. -/
structure ParameterKey where
  fullKey : ByteString
  deriving DecidableEq, Repr

/-- `ParameterKey(device, param)`: the key is stitched in one pass. -/
def ParameterKey.ofParts (device param : ByteString) : ParameterKey :=
  ⟨(device ++ [separator]) ++ param⟩

theorem ParameterKey.ofParts_eq (device param : ByteString) :
    ParameterKey.ofParts device param = ⟨composeKey device param⟩ := by
  rw [ParameterKey.ofParts, composeKey, List.append_assoc, List.singleton_append]

/-- A pre-composed key for the `_flat` methods. -/
structure FlatKey where
  key : ByteString
  composed : ∃ device param, key = composeKey device param

/-- `FlatKey::compose(device, param)`, the only way to obtain a flat key. -/
def FlatKey.compose (device param : ByteString) : FlatKey where
  key := (device ++ [separator]) ++ param
  composed := ⟨device, param, by simp [composeKey]⟩

/-- `FlatKey::view()`. -/
def FlatKey.view (k : FlatKey) : ByteString := k.key

@[simp] theorem FlatKey.view_compose (device param : ByteString) :
    (FlatKey.compose device param).view = composeKey device param := by
  simp [FlatKey.view, FlatKey.compose, composeKey]

/-! ### The piecewise comparison -/

/-- `l_view.substr(pos)`, which throws when `pos` is past the end. -/
def substr (lView : ByteString) (pos : ℕ) : Checked ByteString :=
  if pos ≤ lView.length then .ok (lView.drop pos) else .error .outOfBounds

/-- The lambda of `find`, `set_impl` and `update_impl`: does a stored key equal
`device + 0x1F + param`? The length test comes first and is what keeps the accesses behind
it inside the key. -/
def keyMatches (device param lView : ByteString) : Checked Bool :=
  if lView.length ≠ device.length + 1 + param.length then .ok false
  else if lView.take device.length ≠ device then .ok false
  else do
    let c ← Checked.at lView device.length
    if c ≠ separator then pure false
    else
      let rest ← substr lView (device.length + 1)
      pure (decide (rest = param))

/-- A separator of the right position splits a list of the right length. -/
private theorem take_eq_of_eq_composeKey {device param : ByteString} :
    (composeKey device param).take device.length = device := by
  rw [composeKey, List.take_left]

/-- **The piecewise comparison is equality with the composed key**, and every access it makes
is inside the stored key: it never yields a fault, whatever bytes the key holds. -/
theorem keyMatches_eq (device param lView : ByteString) :
    keyMatches device param lView = .ok (decide (lView = composeKey device param)) := by
  unfold keyMatches
  split_ifs with hlen hpre
  · have hne : lView ≠ composeKey device param := fun h => hlen (by
      rw [h, composeKey, List.length_append, List.length_cons]
      omega)
    rw [decide_eq_false hne]
  · have hne : lView ≠ composeKey device param := fun h => hpre (by
      rw [h, take_eq_of_eq_composeKey])
    rw [decide_eq_false hne]
  · rw [not_not] at hlen hpre
    have hlt : device.length < lView.length := by omega
    have hsplit : lView = device ++ lView[device.length] :: lView.drop (device.length + 1) := by
      conv_lhs => rw [← List.take_append_drop device.length lView, hpre]
      rw [List.drop_eq_getElem_cons hlt]
    have hat : Checked.at lView device.length = .ok lView[device.length] := by
      rw [Checked.at, List.getElem?_eq_getElem hlt]
    have hsub : substr lView (device.length + 1) = .ok (lView.drop (device.length + 1)) :=
      if_pos hlt
    simp only [hat, hsub, bind, Except.bind, pure, Except.pure]
    split_ifs with hc
    · have hne : lView ≠ composeKey device param := fun h => by
        rw [hsplit, composeKey] at h
        exact hc (List.cons.inj (List.append_cancel_left h)).1
      rw [decide_eq_false hne]
    · rw [not_not] at hc
      have hiff : lView.drop (device.length + 1) = param ↔ lView = composeKey device param := by
        rw [composeKey]
        constructor
        · intro h
          rw [hsplit, hc, h]
        · intro h
          rw [hsplit] at h
          exact (List.cons.inj (List.append_cancel_left h)).2
      rw [decide_eq_decide.mpr hiff]

/-! ### Attachments, configuration, output -/

/-- Large raw binary data. -/
structure Attachment where
  name : ByteString
  rawData : ByteString
  deriving DecidableEq, Repr

/-- The construction hint; `initialReserve = 0` means that the count is not known. -/
structure FrameConfig where
  initialReserve : ℕ := 0
  deriving DecidableEq, Repr

/-- `VectorBuffer::write`: the packer appends to the output vector. -/
def write (bytes : ByteString) : Proc ByteString Unit := Proc.modify (· ++ bytes)

@[simp] theorem write_apply (bytes buf : ByteString) :
    write bytes buf = .returned () (buf ++ bytes) := rfl

/-- Writing to the buffer always succeeds. -/
theorem write_defined (bytes : ByteString) : (write bytes).Defined := .modify _

end MsgFrame
