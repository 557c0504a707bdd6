import MessageFrame.ForMathlib.FixedWidth
import MessageFrame.Model.Structures

/-!
# Parameter values

`ParameterValue` is the *value* a C++ `ParameterValue` object stands for. The object itself,
a type tag over a hand-managed union, is modelled in `TaggedUnion.lean`; `unpack_refines` connects
its `unpack` with the one here. What it means to destroy an object whose `unpack` has thrown is a
question about the object, and is left out wherever values are enough.
-/

namespace MsgFrame

open Msgpack

/-- `ParameterValue::Type`. -/
inductive ValueType where
  | unknown
  | int64
  | double
  | string
  | bool
  deriving DecidableEq, Repr

/-- The wire tag of a type, `static_cast<uint8_t>(type)`. -/
def ValueType.raw : ValueType → UInt8
  | .unknown => 0
  | .int64 => 10
  | .double => 20
  | .string => 30
  | .bool => 40

/-- `static_cast<Type>(raw)`, as the `switch` statements see it: a value without an
enumerator takes the `default` branch, like `Unknown`. -/
def ValueType.ofRaw (raw : UInt8) : ValueType :=
  if raw = 10 then .int64
  else if raw = 20 then .double
  else if raw = 30 then .string
  else if raw = 40 then .bool
  else .unknown

@[simp] theorem ValueType.ofRaw_raw (t : ValueType) : ValueType.ofRaw t.raw = t := by
  cases t <;> rfl

/-- A parameter value with its payload. -/
inductive ParameterValue where
  | unknown
  | int64 (v : Int64)
  | double (v : Double)
  | string (v : ByteString)
  | bool (v : Bool)
  deriving DecidableEq, Repr

namespace ParameterValue

/-- `getType()`. -/
def type : ParameterValue → ValueType
  | .unknown => .unknown
  | .int64 _ => .int64
  | .double _ => .double
  | .string _ => .string
  | .bool _ => .bool

/-- Same tag and same payload, where the payloads of two doubles are compared by `same`. -/
inductive SameValue (same : Double → Double → Prop) : ParameterValue → ParameterValue → Prop
  | unknown : SameValue same .unknown .unknown
  | int64 (v : Int64) : SameValue same (.int64 v) (.int64 v)
  | double {v w : Double} : same v w → SameValue same (.double v) (.double w)
  | string (v : ByteString) : SameValue same (.string v) (.string v)
  | bool (v : Bool) : SameValue same (.bool v) (.bool v)

/-- When doubles come back bit for bit, so do values. -/
theorem sameValue_eq {v w : ParameterValue} : SameValue Eq v w ↔ v = w := by
  constructor
  · rintro (_ | _ | rfl | _ | _) <;> rfl
  · rintro rfl
    cases v
    · exact .unknown
    · exact .int64 _
    · exact .double rfl
    · exact .string _
    · exact .bool _

/-- `tryGetInt`. -/
def tryGetInt : ParameterValue → Option Int64
  | .int64 v => some v
  | _ => none

/-- `tryGetDouble`. -/
def tryGetDouble : ParameterValue → Option Double
  | .double v => some v
  | _ => none

/-- `tryGetString`. -/
def tryGetString : ParameterValue → Option ByteString
  | .string v => some v
  | _ => none

/-- `tryGetBool`. -/
def tryGetBool : ParameterValue → Option Bool
  | .bool v => some v
  | _ => none

variable (M : Codec)

/-- `ParameterValue::pack`: the pair of the type tag and the payload. -/
def pack (v : ParameterValue) : Proc ByteString Unit := do
  write (M.packArray 2)
  write (M.packUInt8 v.type.raw)
  match v with
  | .int64 n => write (M.packInt64 n)
  | .double d => write (M.packDouble d)
  | .bool b => write (M.packBool b)
  | .string s =>
    let bytes ← Proc.orThrow (M.packString s)
    write bytes
  | .unknown => write M.packNil

/-- The value that `ParameterValue::unpack` leaves in an object, `none` if it throws: an
object that is not a pair is read as `Unknown`, and so is a pair with an unknown tag. -/
def unpack : Object → Option ParameterValue
  | .array (tag :: payload :: _) => do
    let rawType ← M.asUInt8 tag
    match ValueType.ofRaw rawType with
    | .int64 => (M.asInt64 payload).map .int64
    | .double => (M.asDouble payload).map .double
    | .bool => (M.asBool payload).map .bool
    | .string => (M.asStringView payload).map .string
    | .unknown => some .unknown
  | _ => some .unknown

end ParameterValue

/-- The arguments that the template `VALUE` accepts, by the branch they select. A floating-point
number has been converted to `double`, and a C string is given up to its terminating null. -/
inductive ValueArg where
  | bool (val : Bool)
  | integral (T : IntType) (val : T.Val)
  | floating (val : Double)
  | string (val : ByteString)
  | cString (val : ByteString)

/-- `VALUE`: an integer of any type other than `bool` is cast to `int64_t`. -/
def VALUE : ValueArg → ParameterValue
  | .bool val => .bool val
  | .integral _ val => .int64 (Int64.ofInt val.val)
  | .floating val => .double val
  | .string val => .string val
  | .cString val => .string val

end MsgFrame
