import MessageFrame.ForMathlib.Asserting
import MessageFrame.Model.HybridMessageMap

/-!
# The container of a Debug build

Without `NDEBUG`, `add_impl` and `add_flat` begin with a search for the key and an assertion that
there is none. The functions that insert through them, `set_impl` and `set_flat`, then contain the
assertion too, behind a search of their own. All other functions are the same in both builds.
-/

namespace MsgFrame

open Msgpack

namespace HybridMessageMap.Debug

variable {μ : Type} [UnorderedMap μ ParameterKey ParameterValue]

/-- `add_impl`. -/
def add (device param : ByteString) (val : Arg) : Asserting (HybridMessageMap μ) Unit := do
  let m ← (Proc.get : Proc (HybridMessageMap μ) _)
  let found ← (Proc.eval (m.findRef device param) : Proc (HybridMessageMap μ) _)
  Asserting.assert found.isNone
  (HybridMessageMap.add device param val : Proc (HybridMessageMap μ) Unit)

/-- Both overloads of `add_flat`. -/
def addFlat (flatKey : FlatKey) (val : Arg) : Asserting (HybridMessageMap μ) Unit := do
  let m ← (Proc.get : Proc (HybridMessageMap μ) _)
  let found ← (Proc.eval (m.findFlatRef flatKey) : Proc (HybridMessageMap μ) _)
  Asserting.assert found.isNone
  (HybridMessageMap.addFlat flatKey val : Proc (HybridMessageMap μ) Unit)

/-- `set_impl`. -/
def set (device param : ByteString) (val : Arg) : Asserting (HybridMessageMap μ) Unit := do
  let m ← (Proc.get : Proc (HybridMessageMap μ) _)
  let existing ← (Proc.eval (m.findForWrite device param) : Proc (HybridMessageMap μ) _)
  match existing with
  | some ref => (assignAt ref val.value : Proc (HybridMessageMap μ) Unit)
  | none => add device param val

/-- Both overloads of `set_flat`. -/
def setFlat (flatKey : FlatKey) (val : Arg) : Asserting (HybridMessageMap μ) Unit := do
  let m ← (Proc.get : Proc (HybridMessageMap μ) _)
  let existing ← (Proc.eval (m.findFlatRef flatKey) : Proc (HybridMessageMap μ) _)
  match existing with
  | some ref => (assignAt ref val.value : Proc (HybridMessageMap μ) Unit)
  | none => addFlat flatKey val

end HybridMessageMap.Debug

/-- Execute a call on a container of a Debug build. -/
def MapCall.debugExec {μ : Type} [UnorderedMap μ ParameterKey ParameterValue] :
    MapCall → Asserting (HybridMessageMap μ) Reply
  | .add device param val => do
    HybridMessageMap.Debug.add device param val
    pure .void
  | .addFlat flatKey val => do
    HybridMessageMap.Debug.addFlat flatKey val
    pure .void
  | .set device param val => do
    HybridMessageMap.Debug.set device param val
    pure .void
  | .setFlat flatKey val => do
    HybridMessageMap.Debug.setFlat flatKey val
    pure .void
  | call => (call.exec : Proc (HybridMessageMap μ) Reply)

end MsgFrame
