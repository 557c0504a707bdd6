import MessageFrame.ForMathlib.Ledger
import MessageFrame.Model.Value

/-!
# Parameter values as objects

A C++ `ParameterValue` object is a type tag next to a union whose bytes hold either one of three
scalars or a `std::string`, which the member functions construct and destroy by hand. Here the
objects of a program live in a `World`, at addresses that are never reused, and the strings
constructed in their buffers are numbered, so that a string that is destroyed twice, leaked or
used outside its lifetime shows: using or destroying a string where there is none is the fault
`notAlive`, writing over one that has not been destroyed is `overwritten`.

Constructing or assigning a string from another one may run out of memory. The argument `throws`
of a function says whether it does.
-/

namespace MsgFrame

open Msgpack

/-- `ValueUnion`, by what its bytes hold. -/
inductive ValueUnion where
  /-- Nothing: raw bytes. -/
  | raw
  /-- `intValue`, `doubleValue` or `boolValue`, which share their bytes. -/
  | scalar (bits : UInt64)
  /-- A live string in `stringBuffer`. -/
  | stringBuffer (id : ℕ) (s : ByteString)
  deriving DecidableEq, Repr

/-- The string that lives in the bytes. -/
def ValueUnion.owns : ValueUnion → List ℕ
  | .stringBuffer id _ => [id]
  | _ => []

/-- The members of a `ParameterValue`. -/
structure ValueObject where
  type : ValueType
  value : ValueUnion
  deriving DecidableEq, Repr

/-- The objects of a program, `none` at the address of one whose lifetime is over, and the
strings that have been constructed in their buffers. -/
structure World where
  objects : List (Option ValueObject) := []
  constructed : ℕ := 0
  destroyed : List ℕ := []
  deriving DecidableEq, Repr

namespace World

/-- Put an object, or nothing, at the address `i`. -/
def put (w : World) (i : ℕ) (o : Option ValueObject) : World :=
  { w with objects := w.objects.set i o }

/-- The strings held at an address. -/
def owns (o : Option ValueObject) : List ℕ := o.elim [] fun o => o.value.owns

/-- The live strings. -/
def live (w : World) : List ℕ := Ledger.held owns w.objects

end World

namespace ValueObject

/-! ### Accesses -/

/-- Access the object at the address `i`. -/
def read (i : ℕ) : Proc World ValueObject := do
  let w ← Proc.get
  match w.objects[i]? with
  | some (some o) => pure o
  | _ => Proc.eval (.error .notAlive)

/-- `type = t`. -/
def setType (i : ℕ) (t : ValueType) : Proc World Unit := do
  let o ← read i
  Proc.modify (·.put i (some { o with type := t }))

/-- `value.intValue = v`, `value.doubleValue = v` or `value.boolValue = v`. -/
def setScalar (i : ℕ) (bits : UInt64) : Proc World Unit := do
  let o ← read i
  match o.value with
  | .stringBuffer _ _ => Proc.eval (.error .overwritten)
  | _ => Proc.modify (·.put i (some { o with value := .scalar bits }))

/-- `value.intValue`, `value.doubleValue` or `value.boolValue`. -/
def scalar (i : ℕ) : Proc World UInt64 := do
  let o ← read i
  match o.value with
  | .scalar bits => pure bits
  | _ => Proc.eval (.error .notAlive)

/-- `::new (value.stringBuffer) std::string(s)`. -/
def newString (i : ℕ) (s : ByteString) (throws : Bool) : Proc World Unit := do
  let o ← read i
  -- the allocation fails before anything is written
  if throws then Proc.throw
  else
    match o.value with
    | .stringBuffer _ _ => Proc.eval (.error .overwritten)
    | _ => Proc.modify fun w =>
      { w.put i (some { o with value := .stringBuffer w.constructed s }) with
        constructed := w.constructed + 1 }

/-- `as_string()`, with what is read through the reference. -/
def asString (i : ℕ) : Proc World ByteString := do
  let o ← read i
  match o.value with
  | .stringBuffer _ s => pure s
  | _ => Proc.eval (.error .notAlive)

/-- `as_string() = s`. A string that cannot be assigned to keeps its contents. -/
def assignString (i : ℕ) (s : ByteString) (throws : Bool) : Proc World Unit := do
  let o ← read i
  match o.value with
  | .stringBuffer id _ =>
    if throws then Proc.throw
    else Proc.modify (·.put i (some { o with value := .stringBuffer id s }))
  | _ => Proc.eval (.error .notAlive)

/-- `as_string().~string_type()`. -/
def destroyString (i : ℕ) : Proc World Unit := do
  let o ← read i
  match o.value with
  | .stringBuffer id _ => Proc.modify fun w =>
    { w.put i (some { o with value := .raw }) with destroyed := id :: w.destroyed }
  | _ => Proc.eval (.error .notAlive)

/-- The `switch (type)` of the functions that read the payload. -/
def load (i : ℕ) : Proc World ParameterValue := do
  let o ← read i
  match o.type with
  | .int64 =>
    let bits ← scalar i
    pure (.int64 bits.toInt64)
  | .double =>
    let bits ← scalar i
    pure (.double ⟨bits⟩)
  | .bool =>
    let bits ← scalar i
    pure (.bool (bits ≠ 0))
  | .string =>
    let s ← asString i
    pure (.string s)
  | .unknown => pure .unknown

/-- The assignment to the member that holds the payload `v`. -/
def store (i : ℕ) (v : ParameterValue) (throws : Bool) : Proc World Unit :=
  match v with
  | .int64 n => setScalar i n.toUInt64
  | .double d => setScalar i d.bits
  | .bool b => setScalar i (if b then 1 else 0)
  | .string s => newString i s throws
  | .unknown => setScalar i 0

/-! ### Member functions -/

/-- `reset`. -/
def reset (i : ℕ) : Proc World Unit := do
  let o ← read i
  if o.type = .string then destroyString i
  setType i .unknown
  setScalar i 0

/-- The end of an object's lifetime. A string that still lived in its bytes would be lost. -/
def release (i : ℕ) : Proc World Unit := do
  let o ← read i
  match o.value with
  | .stringBuffer _ _ => Proc.eval (.error .overwritten)
  | _ => Proc.modify (·.put i none)

/-- A constructor `ParameterValue(...) : type(t) { body }`, with the address of the new object.
An object whose constructor throws has never lived. -/
def construct (t : ValueType) (body : ℕ → Proc World Unit) : Proc World ℕ := do
  let w ← Proc.get
  let i := w.objects.length
  Proc.modify fun w => { w with objects := w.objects ++ [some ⟨t, .raw⟩] }
  Proc.tryCatch (body i) do
    release i
    Proc.throw
  pure i

/-- The constructors that take a payload, and the one that takes nothing (`Unknown`). -/
def ofPayload (v : ParameterValue) (throws : Bool) : Proc World ℕ :=
  construct v.type fun i => store i v throws

/-- `~ParameterValue`. -/
def destroy (i : ℕ) : Proc World Unit := do
  reset i
  release i

/-- The `switch (type)` of the copy operations: the payload of `other` is copied. -/
def copyPayload (i other : ℕ) (throws : Bool) : Proc World Unit := do
  let v ← load other
  store i v throws

/-- The `switch (type)` of the move operations. A string is constructed without throwing; what
is left of the string it is moved from is destroyed by the `reset` that follows in both. -/
def movePayload (i other : ℕ) : Proc World Unit := do
  let v ← load other
  store i v false

/-- `ParameterValue(const ParameterValue&)`. -/
def copyConstruct (other : ℕ) (throws : Bool) : Proc World ℕ := do
  let o ← read other
  construct o.type fun i => copyPayload i other throws

/-- `ParameterValue(ParameterValue&&)`. -/
def moveConstruct (other : ℕ) : Proc World ℕ := do
  let o ← read other
  construct o.type fun i => do
    movePayload i other
    reset other

/-- `operator=(const ParameterValue&)`. -/
def copyAssign (i other : ℕ) (throws : Bool) : Proc World Unit := do
  if i ≠ other then
    reset i
    let o ← read other
    -- the old payload is gone, and the copy of the new one may throw
    setType i o.type
    copyPayload i other throws

/-- `operator=(ParameterValue&&)`. -/
def moveAssign (i other : ℕ) : Proc World Unit := do
  if i ≠ other then
    reset i
    let o ← read other
    setType i o.type
    movePayload i other
    reset other

/-- `setValue(int64_t)`, `setValue(double)` and `setValue(bool)`. -/
def setValueScalar (i : ℕ) (v : ParameterValue) : Proc World Unit := do
  reset i
  setType i v.type
  store i v false

/-- `setValue(const std::string&)`, and `setValue(std::string&&)`, which never throws. -/
def setValueString (i : ℕ) (s : ByteString) (throws : Bool) : Proc World Unit := do
  let o ← read i
  if o.type = .string then assignString i s throws
  else
    reset i
    setType i .string
    newString i s throws

variable (M : Codec)

/-- `unpack`. The tag is set before the payload is converted. -/
def unpack (i : ℕ) (obj : Object) (throws : Bool) : Proc World Unit := do
  reset i
  match obj with
  | .array (tag :: payload :: _) =>
    let rawType ← Proc.orThrow (M.asUInt8 tag)
    -- a conversion that throws from here on leaves the new tag over the old bytes
    setType i (.ofRaw rawType)
    match ValueType.ofRaw rawType with
    | .int64 =>
      let v ← Proc.orThrow (M.asInt64 payload)
      setScalar i v.toUInt64
    | .double =>
      let v ← Proc.orThrow (M.asDouble payload)
      setScalar i v.bits
    | .bool =>
      let v ← Proc.orThrow (M.asBool payload)
      setScalar i (if v then 1 else 0)
    | .string =>
      let sv ← Proc.orThrow (M.asStringView payload)
      newString i sv throws
    | .unknown =>
      setType i .unknown
      setScalar i 0
  | _ => setType i .unknown

/-! ### Getters -/

/-- `getType`. -/
def getType (i : ℕ) : Proc World ValueType := do
  let o ← read i
  pure o.type

/-- The `tryGet` functions for scalars: the member of the type `t` is read under its tag only. -/
def tryGetScalar {α : Type} (t : ValueType) (member : UInt64 → α) (i : ℕ) :
    Proc World (Option α) := do
  let o ← read i
  if o.type = t then
    let bits ← scalar i
    pure (some (member bits))
  else pure none

/-- `tryGetInt`. -/
def tryGetInt : ℕ → Proc World (Option Int64) := tryGetScalar .int64 UInt64.toInt64

/-- `tryGetDouble`. -/
def tryGetDouble : ℕ → Proc World (Option Double) := tryGetScalar .double Double.mk

/-- `tryGetBool`. -/
def tryGetBool : ℕ → Proc World (Option Bool) := tryGetScalar .bool (· ≠ 0)

/-- `tryGetString`; the copy of the string may throw. -/
def tryGetString (i : ℕ) (throws : Bool) : Proc World (Option ByteString) := do
  let o ← read i
  if o.type = .string then
    let s ← asString i
    if throws then Proc.throw
    else pure (some s)
  else pure none

/-- `pack`, with the output buffer before and afterwards. -/
def pack (i : ℕ) (buffer : ByteString) : Proc World ByteString := do
  let v ← load i
  match v.pack M buffer with
  | .returned _ out => pure out
  | .threw _ => Proc.throw
  | .undefined e => Proc.eval (.error e)

end ValueObject

/-! ### Operations on the objects of a program -/

/-- The operations that a program performs on its `ParameterValue` objects. -/
inductive ValueCall where
  /-- The constructors without an argument, from a number, a `bool`, a string or a C string. -/
  | create (v : ParameterValue) (throws : Bool)
  | copyConstruct (other : ℕ) (throws : Bool)
  | moveConstruct (other : ℕ)
  | copyAssign (i other : ℕ) (throws : Bool)
  | moveAssign (i other : ℕ)
  | setInt (i : ℕ) (v : Int64)
  | setDouble (i : ℕ) (v : Double)
  | setBool (i : ℕ) (v : Bool)
  | setString (i : ℕ) (v : ByteString) (throws : Bool)
  /-- `setValue(std::string&&)`. -/
  | setStringMoved (i : ℕ) (v : ByteString)
  | unpack (i : ℕ) (obj : Object) (throws : Bool)
  /-- A `const` member function: `pack`, `toString` or one of the `tryGet` functions. -/
  | load (i : ℕ)
  | destroy (i : ℕ)

open ValueObject in
/-- Execute an operation. -/
def ValueCall.exec (M : Codec) : ValueCall → Proc World Unit
  | .create v throws => do
    let _ ← ofPayload v throws
  | .copyConstruct other throws => do
    let _ ← ValueObject.copyConstruct other throws
  | .moveConstruct other => do
    let _ ← ValueObject.moveConstruct other
  | .copyAssign i other throws => ValueObject.copyAssign i other throws
  | .moveAssign i other => ValueObject.moveAssign i other
  | .setInt i v => setValueScalar i (.int64 v)
  | .setDouble i v => setValueScalar i (.double v)
  | .setBool i v => setValueScalar i (.bool v)
  | .setString i v throws => setValueString i v throws
  | .setStringMoved i v => setValueString i v false
  | .unpack i obj throws => ValueObject.unpack M i obj throws
  | .load i => do
    let _ ← ValueObject.load i
  | .destroy i => ValueObject.destroy i

/-- The objects that an operation is applied to. -/
def ValueCall.operands : ValueCall → List ℕ
  | .create _ _ => []
  | .copyConstruct other _ => [other]
  | .moveConstruct other => [other]
  | .copyAssign i other _ => [i, other]
  | .moveAssign i other => [i, other]
  | .setInt i _ => [i]
  | .setDouble i _ => [i]
  | .setBool i _ => [i]
  | .setString i _ _ => [i]
  | .setStringMoved i _ => [i]
  | .unpack i _ _ => [i]
  | .load i => [i]
  | .destroy i => [i]

/-- What a getter returns. -/
inductive ValueReply where
  | void
  | type (t : ValueType)
  | int (v : Option Int64)
  | double (v : Option Double)
  | string (v : Option ByteString)
  | bool (v : Option Bool)
  | packed (buffer : ByteString)
  deriving DecidableEq, Repr

/-- The uses of `ParameterValue` objects: the operations and the getters. -/
inductive ValueUse where
  | call (c : ValueCall)
  | getType (i : ℕ)
  | tryGetInt (i : ℕ)
  | tryGetDouble (i : ℕ)
  | tryGetString (i : ℕ) (throws : Bool)
  | tryGetBool (i : ℕ)
  | pack (i : ℕ) (buffer : ByteString)

/-- Execute a use. -/
def ValueUse.exec (M : Codec) : ValueUse → Proc World ValueReply
  | .call c => do
    c.exec M
    pure .void
  | .getType i => do
    let t ← ValueObject.getType i
    pure (.type t)
  | .tryGetInt i => do
    let v ← ValueObject.tryGetInt i
    pure (.int v)
  | .tryGetDouble i => do
    let v ← ValueObject.tryGetDouble i
    pure (.double v)
  | .tryGetString i throws => do
    let v ← ValueObject.tryGetString i throws
    pure (.string v)
  | .tryGetBool i => do
    let v ← ValueObject.tryGetBool i
    pure (.bool v)
  | .pack i buffer => do
    let out ← ValueObject.pack M i buffer
    pure (.packed out)

/-- The objects that a use is applied to. -/
def ValueUse.operands : ValueUse → List ℕ
  | .call c => c.operands
  | .getType i => [i]
  | .tryGetInt i => [i]
  | .tryGetDouble i => [i]
  | .tryGetString i _ => [i]
  | .tryGetBool i => [i]
  | .pack i _ => [i]

end MsgFrame
