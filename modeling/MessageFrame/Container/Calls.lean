import MessageFrame.Container.Invariant

/-!
# One description of all calls on the container

The calls of the parameter API come in a pair form and a flat form, and most of them in two
overloads, but there are only five operations on keys behind them (`MapOp`). `Effect` says
what each of the five can do to a container, and `MapCall.exec_spec` that every call does what
`Effect` says of its operation — from any state that satisfies the invariant, without a fault
and without an exception.
-/

namespace MsgFrame

open Msgpack AssocList

/-- The operations on string keys behind the parameter API. -/
inductive MapOp where
  | insert (key : ByteString) (val : ParameterValue)
  | upsert (key : ByteString) (val : ParameterValue)
  | replace (key : ByteString) (val : ParameterValue)
  | lookup (key : ByteString)
  | clear
  deriving DecidableEq, Repr

/-- The operation that a call performs. -/
def MapCall.op : MapCall → MapOp
  | .add device param val => .insert (composeKey device param) val.value
  | .addFlat flatKey val => .insert flatKey.view val.value
  | .set device param val => .upsert (composeKey device param) val.value
  | .setFlat flatKey val => .upsert flatKey.view val.value
  | .update device param val => .replace (composeKey device param) val.value
  | .updateFlat flatKey val => .replace flatKey.view val.value
  | .find device param => .lookup (composeKey device param)
  | .findFlat flatKey => .lookup flatKey.view
  | .clear => .clear

namespace HybridMessageMap

variable {μ : Type} [UnorderedMap μ ParameterKey ParameterValue]

/-- What an operation replies and leaves behind. -/
inductive Effect (m : HybridMessageMap μ) : MapOp → Reply → HybridMessageMap μ → Prop
  | insert {key val m'} : Inserted m ⟨key⟩ val m' → Effect m (.insert key val) .void m'
  | upsertOld {key val m'} : ⟨key⟩ ∈ keys m.entries → Assigned m ⟨key⟩ val m' →
    Effect m (.upsert key val) .void m'
  | upsertNew {key val m'} : ⟨key⟩ ∉ keys m.entries → Inserted m ⟨key⟩ val m' →
    Effect m (.upsert key val) .void m'
  | replaceOld {key val m'} : ⟨key⟩ ∈ keys m.entries → Assigned m ⟨key⟩ val m' →
    Effect m (.replace key val) (.bool true) m'
  | replaceMissing {key val} : ⟨key⟩ ∉ keys m.entries →
    Effect m (.replace key val) (.bool false) m
  | lookup {key} : Effect m (.lookup key) (.value (m.entries.lookup ⟨key⟩)) m
  | clear : Effect m .clear .void (ofConfig m.cfg)

/-- Every operation keeps the mode/storage invariant. -/
theorem Effect.inv {m m' : HybridMessageMap μ} {op : MapOp} {r : Reply} (h : m.Inv)
    (he : Effect m op r m') : m'.Inv := by
  cases he with
  | insert hins => exact hins.inv
  | upsertOld _ has => exact has.inv
  | upsertNew _ hins => exact hins.inv
  | replaceOld _ has => exact has.inv
  | replaceMissing _ => exact h
  | lookup => exact h
  | clear => exact ofConfig_inv _

/-- No operation touches the sizing hint. -/
theorem Effect.cfg_eq {m m' : HybridMessageMap μ} {op : MapOp} {r : Reply}
    (he : Effect m op r m') : m'.cfg = m.cfg := by
  cases he with
  | insert hins => exact hins.cfg
  | upsertOld _ has => exact has.cfg
  | upsertNew _ hins => exact hins.cfg
  | replaceOld _ has => exact has.cfg
  | replaceMissing _ => rfl
  | lookup => rfl
  | clear => exact cfg_ofConfig _

end HybridMessageMap

open HybridMessageMap in
/-- **What a call does.** Under the invariant every call returns, and it does what `Effect`
says of its operation. -/
theorem MapCall.exec_spec {μ : Type} [UnorderedMap μ ParameterKey ParameterValue]
    [LawfulUnorderedMap μ] {m : HybridMessageMap μ} (h : m.Inv) (c : MapCall) :
    ∃ r m', c.exec m = .returned r m' ∧ Effect m c.op r m' := by
  cases c with
  | add device param val =>
    obtain ⟨m', hexec, hins⟩ := add_spec h device param val
    exact ⟨_, m', Proc.bind_of_returned hexec _, .insert hins⟩
  | addFlat flatKey val =>
    obtain ⟨m', hexec, hins⟩ := addFlat_spec h flatKey val
    exact ⟨_, m', Proc.bind_of_returned hexec _, .insert hins⟩
  | set device param val =>
    obtain ⟨m', hexec, ⟨hmem, has⟩ | ⟨hnot, hins⟩⟩ := set_spec h device param val
    · exact ⟨_, m', Proc.bind_of_returned hexec _, .upsertOld hmem has⟩
    · exact ⟨_, m', Proc.bind_of_returned hexec _, .upsertNew hnot hins⟩
  | setFlat flatKey val =>
    obtain ⟨m', hexec, ⟨hmem, has⟩ | ⟨hnot, hins⟩⟩ := setFlat_spec h flatKey val
    · exact ⟨_, m', Proc.bind_of_returned hexec _, .upsertOld hmem has⟩
    · exact ⟨_, m', Proc.bind_of_returned hexec _, .upsertNew hnot hins⟩
  | update device param val =>
    obtain ⟨hmem, m', hexec, has⟩ | ⟨hnot, hexec⟩ := update_spec h device param val
    · exact ⟨_, m', Proc.bind_of_returned hexec _, .replaceOld hmem has⟩
    · exact ⟨_, m, Proc.bind_of_returned hexec _, .replaceMissing hnot⟩
  | updateFlat flatKey val =>
    obtain ⟨hmem, m', hexec, has⟩ | ⟨hnot, hexec⟩ := updateFlat_spec h flatKey val
    · exact ⟨_, m', Proc.bind_of_returned hexec _, .replaceOld hmem has⟩
    · exact ⟨_, m, Proc.bind_of_returned hexec _, .replaceMissing hnot⟩
  | find device param =>
    refine ⟨_, m, ?_, .lookup⟩
    rw [MapCall.exec, Proc.get_bind, find_eq h]
    rfl
  | findFlat flatKey =>
    refine ⟨_, m, ?_, .lookup⟩
    rw [MapCall.exec, Proc.get_bind, findFlat_eq h]
    rfl
  | clear => exact ⟨_, _, Proc.bind_of_returned (clear_eq m) _, .clear⟩

end MsgFrame
