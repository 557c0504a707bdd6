import MessageFrame.ForMathlib.UnorderedMap
import MessageFrame.Model.Value

/-!
# The hybrid parameter container

`HybridMessageMap` keeps its entries in a vector (vector mode) up to `smallCapacity` of them
and in a hash map (map mode) beyond, or from the start when the sizing hint asks for it. The
mode flag, the vector and the pointer to the map are separate members, and the functions here
update them in the order of the source. Dereferencing a null map pointer is a fault.

The hash map is a parameter `μ` with the interface `UnorderedMap`. Allocations succeed, and
an argument is never a reference to an entry of the container itself. The functions are those
of a Release build, without the assertions on duplicate keys.

`MapCall` collects the calls of the parameter API, and `MapCall.exec` is the step function of a
container under them.

`const` member functions are `Checked` expressions; the others are procedures. A lookup
returns a reference to an entry (`EntryRef`), through which `set` and `update` write; `find`
and `findFlat` are what the caller reads through that reference.
-/

namespace MsgFrame

open Msgpack

/-- `SMALL_CAPACITY`. -/
def smallCapacity : ℕ := 128

/-- An argument of type `ParameterValue`, passed as an lvalue or as an rvalue. -/
inductive Arg where
  | lvalue (v : ParameterValue)
  | rvalue (v : ParameterValue)
  deriving DecidableEq, Repr

/-- The value that an assignment or a construction takes from an argument. -/
def Arg.value : Arg → ParameterValue
  | .lvalue v => v
  | .rvalue v => v

/-- `HybridMessageMap`. -/
structure HybridMessageMap (μ : Type) where
  isVectorMode : Bool := true
  vectorStorage : List (ParameterKey × ParameterValue) := []
  cfg : FrameConfig := {}
  mapStorage : Option μ := none
  deriving DecidableEq

/-- A non-null pointer to the value of an entry. -/
inductive EntryRef where
  | vector (i : ℕ)
  | map (key : ParameterKey)
  deriving DecidableEq, Repr

namespace HybridMessageMap

variable {μ : Type} [UnorderedMap μ ParameterKey ParameterValue]

/-! ### Construction and storage selection -/

/-- `map_storage->map`. -/
def derefMap (m : HybridMessageMap μ) : Checked μ :=
  match m.mapStorage with
  | some map => .ok map
  | none => .error .nullDereference

/-- A call of a mutating member of `map_storage->map`. -/
def onMap (f : μ → μ) : Proc (HybridMessageMap μ) Unit := do
  let m ← Proc.get
  let map ← Proc.eval m.derefMap
  Proc.modify fun m => { m with mapStorage := some (f map) }

/-- `prime_storage`. -/
def primeStorage : Proc (HybridMessageMap μ) Unit := do
  let m ← Proc.get
  if smallCapacity < m.cfg.initialReserve then
    Proc.modify fun m => { m with isVectorMode := false }
    Proc.modify fun m => { m with mapStorage := some UnorderedMap.empty }
    onMap (UnorderedMap.reserve · m.cfg.initialReserve)
  else
    Proc.modify fun m => { m with isVectorMode := true }

/-- `HybridMessageMap(const FrameConfig&)`: a default-initialised object, primed. -/
def construct (config : FrameConfig) : Outcome (HybridMessageMap μ) Unit :=
  primeStorage { cfg := config }

/-- The object that the constructor builds. -/
def ofConfig (config : FrameConfig) : HybridMessageMap μ :=
  if smallCapacity < config.initialReserve then
    { isVectorMode := false, cfg := config,
      mapStorage := some (UnorderedMap.reserve UnorderedMap.empty config.initialReserve) }
  else { cfg := config }

/-- The constructor never fails, so a constructed container is an `ofConfig`. -/
theorem construct_eq (config : FrameConfig) :
    (construct config : Outcome (HybridMessageMap μ) Unit) = .returned () (ofConfig config) := by
  unfold construct primeStorage ofConfig
  simp only [Proc.get_bind]
  split_ifs with h
  · rfl
  · rfl

/-- The move constructor: the new object and what is left of `other`. The configuration is
not among the members that are moved, so the new object has the default one. -/
def moveConstruct (other : HybridMessageMap μ) : HybridMessageMap μ × HybridMessageMap μ :=
  ({ isVectorMode := other.isVectorMode
     vectorStorage := other.vectorStorage
     mapStorage := other.mapStorage },
   { other with vectorStorage := [], mapStorage := none })

/-- Move assignment: `this` and `other` afterwards. `sameObject` is `this == &other`. -/
def moveAssign (sameObject : Bool) (this other : HybridMessageMap μ) :
    HybridMessageMap μ × HybridMessageMap μ :=
  if sameObject then (this, other)
  else
    ({ this with
        isVectorMode := other.isVectorMode
        vectorStorage := other.vectorStorage
        mapStorage := other.mapStorage },
     { other with vectorStorage := [], mapStorage := none })

/-! ### Lookup -/

/-- The pointer that `find` returns. -/
def findRef (m : HybridMessageMap μ) (device param : ByteString) : Checked (Option EntryRef) :=
  if m.isVectorMode then do
    let it ← Checked.findIf (fun pair => keyMatches device param pair.1.fullKey) m.vectorStorage
    pure (it.map .vector)
  else do
    -- the composed key is looked up in one piece, where the vector compares in place
    let stackKey := (device ++ [separator]) ++ param
    let map ← m.derefMap
    pure ((UnorderedMap.find map ⟨stackKey⟩).map fun _ => .map ⟨stackKey⟩)

/-- The pointer that `find_flat` returns; the key may be any string view. -/
def findViewRef (m : HybridMessageMap μ) (keyView : ByteString) : Checked (Option EntryRef) :=
  if m.isVectorMode then do
    let it ← Checked.findIf (fun pair => .ok (decide (pair.1.fullKey = keyView))) m.vectorStorage
    pure (it.map .vector)
  else do
    let map ← m.derefMap
    pure ((UnorderedMap.find map ⟨keyView⟩).map fun _ => .map ⟨keyView⟩)

/-- The pointer that `find_flat` returns. -/
def findFlatRef (m : HybridMessageMap μ) (flatKey : FlatKey) : Checked (Option EntryRef) :=
  m.findViewRef flatKey.view

/-- `map_find_mutable`: `find`, with the constness of the result cast away. -/
def mapFindMutable (m : HybridMessageMap μ) (device param : ByteString) :
    Checked (Option EntryRef) := m.findRef device param

/-- The value a pointer into the container points to. -/
def valueAt (m : HybridMessageMap μ) : EntryRef → Option ParameterValue
  | .vector i => m.vectorStorage[i]?.map Prod.snd
  | .map key => m.mapStorage.bind (UnorderedMap.find · key)

/-- `find`, with the value behind the pointer it returns. -/
def find (m : HybridMessageMap μ) (device param : ByteString) :
    Checked (Option ParameterValue) := do
  let ref ← m.findRef device param
  pure (ref.bind m.valueAt)

/-- A lookup by a string view, in the manner of `find_flat`. -/
def findView (m : HybridMessageMap μ) (keyView : ByteString) :
    Checked (Option ParameterValue) := do
  let ref ← m.findViewRef keyView
  pure (ref.bind m.valueAt)

/-- `find_flat`, with the value behind the pointer it returns. -/
def findFlat (m : HybridMessageMap μ) (flatKey : FlatKey) : Checked (Option ParameterValue) := do
  let ref ← m.findFlatRef flatKey
  pure (ref.bind m.valueAt)

/-- Assign to the value that a pointer into the container points to. -/
def assignAt (ref : EntryRef) (val : ParameterValue) : Proc (HybridMessageMap μ) Unit :=
  Proc.modify fun m =>
    match ref with
    | .vector i =>
      { m with vectorStorage := m.vectorStorage.modify i fun pair => (pair.1, val) }
    | .map key => { m with mapStorage := m.mapStorage.map (UnorderedMap.assign · key val) }

/-- `size`. -/
def size (m : HybridMessageMap μ) : Checked ℕ :=
  if m.isVectorMode then .ok m.vectorStorage.length
  else do
    let map ← m.derefMap
    pure (UnorderedMap.size map)

/-! ### Insertion and update -/

/-- `convert_to_map`. -/
def convertToMap : Proc (HybridMessageMap μ) Unit := do
  Proc.modify fun m => { m with isVectorMode := false }
  Proc.modify fun m =>
    -- a map left over from an earlier use is taken again
    if m.mapStorage.isNone then { m with mapStorage := some UnorderedMap.empty } else m
  onMap (UnorderedMap.reserve · smallCapacity)
  let m ← Proc.get
  Proc.forEach (fun pair => onMap (UnorderedMap.emplace · ⟨pair.1.fullKey⟩ pair.2))
    m.vectorStorage
  Proc.modify fun m => { m with vectorStorage := [] }

/-- `vector_storage.emplace_back(key, val)`. -/
def emplaceBack (key : ParameterKey) (val : ParameterValue) : Proc (HybridMessageMap μ) Unit :=
  Proc.modify fun m => { m with vectorStorage := m.vectorStorage ++ [(key, val)] }

/-- `map_emplace_rvalue`. -/
def mapEmplaceRvalue (device param : ByteString) (val : ParameterValue) :
    Proc (HybridMessageMap μ) Unit :=
  onMap (UnorderedMap.emplace · (ParameterKey.ofParts device param) val)

/-- `map_emplace_lvalue`. -/
def mapEmplaceLvalue (device param : ByteString) (val : ParameterValue) :
    Proc (HybridMessageMap μ) Unit :=
  onMap (UnorderedMap.emplace · (ParameterKey.ofParts device param) val)

/-- The last statement of `add_impl`, selected by the category of the argument. -/
def mapEmplace (device param : ByteString) : Arg → Proc (HybridMessageMap μ) Unit
  | .rvalue v => mapEmplaceRvalue device param v
  | .lvalue v => mapEmplaceLvalue device param v

/-- `add_impl`, the common body of both `add` overloads. -/
def add (device param : ByteString) (val : Arg) : Proc (HybridMessageMap μ) Unit := do
  let m ← Proc.get
  if m.isVectorMode then
    if smallCapacity ≤ m.vectorStorage.length then
      convertToMap
      mapEmplace device param val
    else emplaceBack (ParameterKey.ofParts device param) val.value
  else mapEmplace device param val

/-- Both overloads of `add_flat`. -/
def addFlat (flatKey : FlatKey) (val : Arg) : Proc (HybridMessageMap μ) Unit := do
  let m ← Proc.get
  if m.isVectorMode then
    if smallCapacity ≤ m.vectorStorage.length then
      convertToMap
      onMap (UnorderedMap.emplace · ⟨flatKey.view⟩ val.value)
    else emplaceBack ⟨flatKey.view⟩ val.value
  else onMap (UnorderedMap.emplace · ⟨flatKey.view⟩ val.value)

/-- The search that `set_impl` and `update_impl` share: a scan of the vector, or
`map_find_mutable`. -/
def findForWrite (m : HybridMessageMap μ) (device param : ByteString) :
    Checked (Option EntryRef) :=
  if m.isVectorMode then do
    let it ← Checked.findIf (fun pair => keyMatches device param pair.1.fullKey) m.vectorStorage
    pure (it.map .vector)
  else m.mapFindMutable device param

/-- `set_impl`, the common body of both `set` overloads. -/
def set (device param : ByteString) (val : Arg) : Proc (HybridMessageMap μ) Unit := do
  let m ← Proc.get
  let existing ← Proc.eval (m.findForWrite device param)
  match existing with
  | some ref => assignAt ref val.value
  | none => add device param val

/-- Both overloads of `set_flat`. -/
def setFlat (flatKey : FlatKey) (val : Arg) : Proc (HybridMessageMap μ) Unit := do
  let m ← Proc.get
  let existing ← Proc.eval (m.findFlatRef flatKey)
  match existing with
  | some ref => assignAt ref val.value
  | none => addFlat flatKey val

/-- `update_impl`, the common body of both `update` overloads. -/
def update (device param : ByteString) (val : Arg) : Proc (HybridMessageMap μ) Bool := do
  let m ← Proc.get
  let existing ← Proc.eval (m.findForWrite device param)
  match existing with
  | some ref =>
    assignAt ref val.value
    pure true
  | none => pure false

/-- Both overloads of `update_flat`. -/
def updateFlat (flatKey : FlatKey) (val : Arg) : Proc (HybridMessageMap μ) Bool := do
  let m ← Proc.get
  let existing ← Proc.eval (m.findFlatRef flatKey)
  match existing with
  | some ref =>
    assignAt ref val.value
    pure true
  | none => pure false

/-- `clear`: the storage is released and the hint is applied again. -/
def clear : Proc (HybridMessageMap μ) Unit := do
  Proc.modify fun m => { m with vectorStorage := [] }
  Proc.modify fun m => { m with mapStorage := none }
  Proc.modify fun m => { m with isVectorMode := true }
  primeStorage

/-! ### Traversal and the wire -/

/-- `iterate`: the callback, unless it is null, is applied to every entry in turn. -/
def iterate {σ : Type} (m : HybridMessageMap μ)
    (callback : Option (σ → ByteString → ParameterValue → σ)) (userData : σ) : σ :=
  match callback with
  | none => userData
  | some f =>
    if m.isVectorMode then
      m.vectorStorage.foldl (fun s pair => f s pair.1.fullKey pair.2) userData
    else
      match m.mapStorage with
      | some map =>
        (UnorderedMap.toList map).foldl (fun s pair => f s pair.1.fullKey pair.2) userData
      | none => userData

variable (M : Codec)

/-- One round of the loops of `pack`. -/
def packEntry (pair : ParameterKey × ParameterValue) : Proc ByteString Unit := do
  let bytes ← Proc.orThrow (M.packString pair.1.fullKey)
  write bytes
  pair.2.pack M

/-- `pack`. -/
def pack (m : HybridMessageMap μ) : Proc ByteString Unit := do
  let n ← Proc.eval m.size
  write (M.packMap n.toUInt32)
  if m.isVectorMode then Proc.forEach (packEntry M) m.vectorStorage
  else
    match m.mapStorage with
    | some map => Proc.forEach (packEntry M) (UnorderedMap.toList map)
    | none => pure ()

/-- One round of the loop of `unpack`: the key and the value are converted before the entry
is stored, so a conversion that throws stores nothing. What the destructor of the local value does
then is left out: `HybridMessageMap.Scoped.unpackEntry` has it. -/
def unpackEntry (pair : Object × Object) : Proc (HybridMessageMap μ) Unit := do
  let keyView ← Proc.orThrow (M.asStringView pair.1)
  let val ← Proc.orThrow (ParameterValue.unpack M pair.2)
  let m ← Proc.get
  if m.isVectorMode then emplaceBack ⟨keyView⟩ val
  else onMap (UnorderedMap.emplace · ⟨keyView⟩ val)

/-- `unpack`. -/
def unpack (obj : Object) : Proc (HybridMessageMap μ) Unit := do
  clear
  match obj with
  | .map pairs =>
    -- the announced count selects the storage, whatever the hint says
    if smallCapacity < pairs.length then
      Proc.modify fun m =>
        if m.mapStorage.isNone then { m with mapStorage := some UnorderedMap.empty } else m
      onMap (UnorderedMap.reserve · pairs.length)
      Proc.modify fun m => { m with isVectorMode := false }
    else Proc.modify fun m => { m with isVectorMode := true }
    Proc.forEach (unpackEntry M) pairs
  | _ => pure ()

end HybridMessageMap

/-! ### Calls on the parameter container -/

/-- The calls of the parameter API, in pair and in flat form. -/
inductive MapCall where
  | add (device param : ByteString) (val : Arg)
  | addFlat (flatKey : FlatKey) (val : Arg)
  | set (device param : ByteString) (val : Arg)
  | setFlat (flatKey : FlatKey) (val : Arg)
  | update (device param : ByteString) (val : Arg)
  | updateFlat (flatKey : FlatKey) (val : Arg)
  | find (device param : ByteString)
  | findFlat (flatKey : FlatKey)
  | clear

/-- What a call returns; a pointer is replaced by the value behind it. -/
inductive Reply where
  | void
  | bool (b : Bool)
  | value (v : Option ParameterValue)
  deriving DecidableEq, Repr

section

variable {μ : Type} [UnorderedMap μ ParameterKey ParameterValue]

/-- Execute a call on a container. -/
def MapCall.exec : MapCall → Proc (HybridMessageMap μ) Reply
  | .add device param val => do
    HybridMessageMap.add device param val
    pure .void
  | .addFlat flatKey val => do
    HybridMessageMap.addFlat flatKey val
    pure .void
  | .set device param val => do
    HybridMessageMap.set device param val
    pure .void
  | .setFlat flatKey val => do
    HybridMessageMap.setFlat flatKey val
    pure .void
  | .update device param val => do
    let b ← HybridMessageMap.update device param val
    pure (.bool b)
  | .updateFlat flatKey val => do
    let b ← HybridMessageMap.updateFlat flatKey val
    pure (.bool b)
  | .find device param => do
    let m ← Proc.get
    let v ← Proc.eval (m.find device param)
    pure (.value v)
  | .findFlat flatKey => do
    let m ← Proc.get
    let v ← Proc.eval (m.findFlat flatKey)
    pure (.value v)
  | .clear => do
    HybridMessageMap.clear
    pure .void

end

end MsgFrame
