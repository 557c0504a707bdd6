import MessageFrame.Model.HybridMessageMap

/-!
# The container under memory pressure

The functions of the container that allocate storage, once more, with allocations that can throw
`std::bad_alloc`. A `Memory` is a container together with what decides whether it allocates: the
capacity of its vector, and the number of allocations attempted so far, by which an arbitrary
oracle `fails` says which of them throw.

The allocations of the storage itself can fail: the hash map, its buckets, the copies of the keys
that a conversion makes, and the buffer of the vector. A copy that needs no allocation, as that of
a short string, is one whose allocation succeeds. Those of new keys, of values, of the lookups and
of a map that grows succeed.

An exception that leaves `clear`, which is `noexcept`, terminates the program.
-/

namespace MsgFrame

open Msgpack

/-- A container, the capacity of its vector and the number of allocations attempted. -/
structure Memory (μ : Type) where
  container : HybridMessageMap μ
  capacity : ℕ := 0
  attempts : ℕ := 0
  deriving DecidableEq

namespace Memory

variable {μ α : Type} [UnorderedMap μ ParameterKey ParameterValue] (fails : ℕ → Bool)

/-- An allocation. -/
def allocate : Proc (Memory μ) Unit := do
  let s ← Proc.get
  Proc.modify fun s => { s with attempts := s.attempts + 1 }
  if fails s.attempts then Proc.throw

/-- Statements without an allocation that can fail. -/
def onContainer (x : Proc (HybridMessageMap μ) α) : Proc (Memory μ) α :=
  Proc.onField Memory.container (fun s m => { s with container := m }) x

/-! ### Members of the storage -/

/-- `vector_storage.reserve(n)`. -/
def reserveVector (n : ℕ) : Proc (Memory μ) Unit := do
  let s ← Proc.get
  if s.capacity < n then
    allocate fails
    Proc.modify fun s => { s with capacity := n }

/-- The growth of a full vector before an element is appended. -/
def growVector : Proc (Memory μ) Unit := do
  let s ← Proc.get
  let size := s.container.vectorStorage.length
  if s.capacity ≤ size then reserveVector fails (max (size + 1) (2 * size))

/-- `map_storage = std::make_unique<MapImpl>()`. -/
def makeMap : Proc (Memory μ) Unit := do
  allocate fails
  onContainer (Proc.modify fun m => { m with mapStorage := some UnorderedMap.empty })

/-- `if (!map_storage) map_storage = std::make_unique<MapImpl>()`. -/
def ensureMap : Proc (Memory μ) Unit := do
  let s ← Proc.get
  if s.container.mapStorage.isNone then makeMap fails

/-- `map_storage->map.reserve(n)`: the new buckets are allocated before the old ones are given
up. -/
def reserveMap (n : ℕ) : Proc (Memory μ) Unit := do
  let s ← Proc.get
  let _ ← Proc.eval s.container.derefMap
  allocate fails
  onContainer (HybridMessageMap.onMap (UnorderedMap.reserve · n))

/-! ### Construction, conversion and clearing -/

/-- `prime_storage`. -/
def primeStorage : Proc (Memory μ) Unit := do
  let s ← Proc.get
  if smallCapacity < s.container.cfg.initialReserve then
    onContainer (Proc.modify fun m => { m with isVectorMode := false })
    makeMap fails
    reserveMap fails s.container.cfg.initialReserve
  else
    onContainer (Proc.modify fun m => { m with isVectorMode := true })
    reserveVector fails smallCapacity

/-- `HybridMessageMap(const FrameConfig&)`, in a program that has attempted so many allocations. -/
def construct (config : FrameConfig) (attempts : ℕ) : Outcome (Memory μ) Unit :=
  primeStorage fails { container := { cfg := config }, attempts := attempts }

/-- One round of the loop of `convert_to_map`: the key is copied, the value is moved out of the
vector. -/
def convertEntry (i : ℕ) : Proc (Memory μ) Unit := do
  let s ← Proc.get
  let pair ← Proc.eval (Checked.at s.container.vectorStorage i)
  allocate fails
  onContainer (HybridMessageMap.onMap (UnorderedMap.emplace · ⟨pair.1.fullKey⟩ pair.2))
  onContainer (Proc.modify fun m =>
    { m with vectorStorage := m.vectorStorage.modify i fun pair => (pair.1, .unknown) })

/-- `convert_to_map`. -/
def convertToMap : Proc (Memory μ) Unit := do
  onContainer (Proc.modify fun m => { m with isVectorMode := false })
  ensureMap fails
  reserveMap fails smallCapacity
  let s ← Proc.get
  Proc.forEach (convertEntry fails) (List.range s.container.vectorStorage.length)
  onContainer (Proc.modify fun m => { m with vectorStorage := [] })
  -- `shrink_to_fit`
  Proc.modify fun s => { s with capacity := 0 }

/-- The `catch` clause of `clear`. -/
def fallBack : Proc (Memory μ) Unit := do
  onContainer (Proc.modify fun m => { m with isVectorMode := true })
  onContainer (Proc.modify fun m => { m with mapStorage := none })
  reserveVector fails smallCapacity

/-- `clear`; the vector keeps its capacity. -/
def clear : Proc (Memory μ) Unit := do
  onContainer (Proc.modify fun m => { m with vectorStorage := [] })
  onContainer (Proc.modify fun m => { m with mapStorage := none })
  onContainer (Proc.modify fun m => { m with isVectorMode := true })
  Proc.tryCatch (primeStorage fails) (fallBack fails)

/-! ### Insertion -/

/-- `vector_storage.emplace_back(key, val)`. -/
def emplaceBack (key : ParameterKey) (val : ParameterValue) : Proc (Memory μ) Unit := do
  growVector fails
  onContainer (HybridMessageMap.emplaceBack key val)

/-- `add_impl`. -/
def add (device param : ByteString) (val : Arg) : Proc (Memory μ) Unit := do
  let s ← Proc.get
  if s.container.isVectorMode then
    if smallCapacity ≤ s.container.vectorStorage.length then
      convertToMap fails
      onContainer (HybridMessageMap.mapEmplace device param val)
    else emplaceBack fails (ParameterKey.ofParts device param) val.value
  else onContainer (HybridMessageMap.mapEmplace device param val)

/-- Both overloads of `add_flat`. -/
def addFlat (flatKey : FlatKey) (val : Arg) : Proc (Memory μ) Unit := do
  let s ← Proc.get
  if s.container.isVectorMode then
    if smallCapacity ≤ s.container.vectorStorage.length then
      convertToMap fails
      onContainer (HybridMessageMap.onMap (UnorderedMap.emplace · ⟨flatKey.view⟩ val.value))
    else emplaceBack fails ⟨flatKey.view⟩ val.value
  else onContainer (HybridMessageMap.onMap (UnorderedMap.emplace · ⟨flatKey.view⟩ val.value))

/-- `set_impl`. -/
def set (device param : ByteString) (val : Arg) : Proc (Memory μ) Unit := do
  let s ← Proc.get
  let existing ← Proc.eval (s.container.findForWrite device param)
  match existing with
  | some ref => onContainer (HybridMessageMap.assignAt ref val.value)
  | none => add fails device param val

/-- Both overloads of `set_flat`. -/
def setFlat (flatKey : FlatKey) (val : Arg) : Proc (Memory μ) Unit := do
  let s ← Proc.get
  let existing ← Proc.eval (s.container.findFlatRef flatKey)
  match existing with
  | some ref => onContainer (HybridMessageMap.assignAt ref val.value)
  | none => addFlat fails flatKey val

/-! ### The wire -/

/-- One round of the loop of `unpack`. -/
def unpackEntry (M : Codec) (pair : Object × Object) : Proc (Memory μ) Unit := do
  let keyView ← Proc.orThrow (M.asStringView pair.1)
  let val ← Proc.orThrow (ParameterValue.unpack M pair.2)
  let s ← Proc.get
  if s.container.isVectorMode then emplaceBack fails ⟨keyView⟩ val
  else onContainer (HybridMessageMap.onMap (UnorderedMap.emplace · ⟨keyView⟩ val))

/-- `unpack`. -/
def unpack (M : Codec) (obj : Object) : Proc (Memory μ) Unit := do
  clear fails
  match obj with
  | .map pairs =>
    if smallCapacity < pairs.length then
      ensureMap fails
      reserveMap fails pairs.length
      onContainer (Proc.modify fun m => { m with isVectorMode := false })
    else onContainer (Proc.modify fun m => { m with isVectorMode := true })
    Proc.forEach (unpackEntry fails M) pairs
  | _ => pure ()

end Memory

/-- Execute a call under memory pressure; the calls that do not insert allocate no storage. A
`clear` that throws is the end of the program. -/
def MapCall.execIn {μ : Type} [UnorderedMap μ ParameterKey ParameterValue] (fails : ℕ → Bool) :
    MapCall → Proc (Memory μ) Reply
  | .add device param val => do
    Memory.add fails device param val
    pure .void
  | .addFlat flatKey val => do
    Memory.addFlat fails flatKey val
    pure .void
  | .set device param val => do
    Memory.set fails device param val
    pure .void
  | .setFlat flatKey val => do
    Memory.setFlat fails flatKey val
    pure .void
  | .clear => do
    Memory.clear fails
    pure .void
  | call => Memory.onContainer call.exec

/-- What can happen to a container under memory pressure. -/
inductive MemoryCall (μ : Type) where
  | api (call : MapCall)
  | unpack (obj : Object)
  /-- A container is move-constructed from it and takes its place. -/
  | moveConstruct
  /-- It is move-assigned from another container. -/
  | moveAssign (other : Memory μ)
  /-- Another container is move-constructed or move-assigned from it. -/
  | moveOut

/-- Execute a call or a move; the vector takes its capacity along. -/
def MemoryCall.exec {μ : Type} [UnorderedMap μ ParameterKey ParameterValue] (fails : ℕ → Bool)
    (M : Codec) : MemoryCall μ → Proc (Memory μ) Reply
  | .api call => call.execIn fails
  | .unpack obj => do
    Memory.unpack fails M obj
    pure .void
  | .moveConstruct => do
    Proc.modify fun s => { s with container := s.container.moveConstruct.1 }
    pure .void
  | .moveAssign other => do
    Proc.modify fun s =>
      { s with
        container := (HybridMessageMap.moveAssign false s.container other.container).1
        capacity := other.capacity }
    pure .void
  | .moveOut => do
    Proc.modify fun s => { s with container := s.container.moveConstruct.2, capacity := 0 }
    pure .void

end MsgFrame
