import MessageFrame.Model.HybridMessageMap

/-!
# Arguments that refer to an entry

The functions of the container that take a value, once more, when the value is a reference to an
entry of the container itself, as in `m.set("b", "x", *m.find("a", "x"))`. What `find` returns is
`const`, so the reference is passed as an lvalue, and it is read where the source reads it: the
vector and the map copy the value before they make room for it, and an entry that is assigned to
itself is left alone, but `convert_to_map` comes before all of these.

Reading through a reference whose entry has been destroyed is a fault.
-/

namespace MsgFrame

open Msgpack

namespace HybridMessageMap.Aliased

variable {μ : Type} [UnorderedMap μ ParameterKey ParameterValue]

/-- Read the argument. -/
def readArg (val : EntryRef) : Proc (HybridMessageMap μ) ParameterValue := do
  let m ← Proc.get
  match m.valueAt val with
  | some v => pure v
  | none => Proc.eval (.error .notAlive)

/-- `add_impl`. -/
def add (device param : ByteString) (val : EntryRef) : Proc (HybridMessageMap μ) Unit := do
  let m ← Proc.get
  if m.isVectorMode then
    if smallCapacity ≤ m.vectorStorage.length then
      convertToMap
      let v ← readArg val
      mapEmplaceLvalue device param v
    else
      let v ← readArg val
      emplaceBack (ParameterKey.ofParts device param) v
  else
    let v ← readArg val
    mapEmplaceLvalue device param v

/-- `add_flat`. -/
def addFlat (flatKey : FlatKey) (val : EntryRef) : Proc (HybridMessageMap μ) Unit := do
  let m ← Proc.get
  if m.isVectorMode then
    if smallCapacity ≤ m.vectorStorage.length then
      convertToMap
      let v ← readArg val
      onMap (UnorderedMap.emplace · ⟨flatKey.view⟩ v)
    else
      let v ← readArg val
      emplaceBack ⟨flatKey.view⟩ v
  else
    let v ← readArg val
    onMap (UnorderedMap.emplace · ⟨flatKey.view⟩ v)

/-- `set_impl`. -/
def set (device param : ByteString) (val : EntryRef) : Proc (HybridMessageMap μ) Unit := do
  let m ← Proc.get
  let existing ← Proc.eval (m.findForWrite device param)
  match existing with
  | some ref => do
    let v ← readArg val
    assignAt ref v
  | none => add device param val

/-- `set_flat`. -/
def setFlat (flatKey : FlatKey) (val : EntryRef) : Proc (HybridMessageMap μ) Unit := do
  let m ← Proc.get
  let existing ← Proc.eval (m.findFlatRef flatKey)
  match existing with
  | some ref => do
    let v ← readArg val
    assignAt ref v
  | none => addFlat flatKey val

/-- `update_impl`. -/
def update (device param : ByteString) (val : EntryRef) : Proc (HybridMessageMap μ) Bool := do
  let m ← Proc.get
  let existing ← Proc.eval (m.findForWrite device param)
  match existing with
  | some ref =>
    let v ← readArg val
    assignAt ref v
    pure true
  | none => pure false

/-- `update_flat`. -/
def updateFlat (flatKey : FlatKey) (val : EntryRef) : Proc (HybridMessageMap μ) Bool := do
  let m ← Proc.get
  let existing ← Proc.eval (m.findFlatRef flatKey)
  match existing with
  | some ref =>
    let v ← readArg val
    assignAt ref v
    pure true
  | none => pure false

end HybridMessageMap.Aliased

/-- The calls that take a value, without the value. -/
inductive CopyTarget where
  | add (device param : ByteString)
  | addFlat (flatKey : FlatKey)
  | set (device param : ByteString)
  | setFlat (flatKey : FlatKey)
  | update (device param : ByteString)
  | updateFlat (flatKey : FlatKey)

/-- The call with a value of its own. -/
def CopyTarget.call (v : ParameterValue) : CopyTarget → MapCall
  | .add device param => .add device param (.lvalue v)
  | .addFlat flatKey => .addFlat flatKey (.lvalue v)
  | .set device param => .set device param (.lvalue v)
  | .setFlat flatKey => .setFlat flatKey (.lvalue v)
  | .update device param => .update device param (.lvalue v)
  | .updateFlat flatKey => .updateFlat flatKey (.lvalue v)

open HybridMessageMap in
/-- The call with a reference to an entry. -/
def CopyTarget.exec {μ : Type} [UnorderedMap μ ParameterKey ParameterValue] (val : EntryRef) :
    CopyTarget → Proc (HybridMessageMap μ) Reply
  | .add device param => do
    Aliased.add device param val
    pure .void
  | .addFlat flatKey => do
    Aliased.addFlat flatKey val
    pure .void
  | .set device param => do
    Aliased.set device param val
    pure .void
  | .setFlat flatKey => do
    Aliased.setFlat flatKey val
    pure .void
  | .update device param => do
    let b ← Aliased.update device param val
    pure (.bool b)
  | .updateFlat flatKey => do
    let b ← Aliased.updateFlat flatKey val
    pure (.bool b)

/-- The calls of a client that also copies from entry to entry. -/
inductive CopyingCall where
  | api (call : MapCall)
  /-- The value found under the source, if any, is passed on: `m.set(…, *m.find_flat(source))`. -/
  | copy (target : CopyTarget) (source : FlatKey)

/-- Execute a call; what a search returns is dereferenced unchecked. -/
def CopyingCall.exec {μ : Type} [UnorderedMap μ ParameterKey ParameterValue] :
    CopyingCall → Proc (HybridMessageMap μ) Reply
  | .api call => call.exec
  | .copy target source => do
    let m ← Proc.get
    let found ← Proc.eval (m.findFlatRef source)
    match found with
    | some val => target.exec val
    | none => Proc.eval (.error .nullDereference)

end MsgFrame
