import Mathlib.Algebra.Group.Nat.Defs
import Mathlib.Data.List.Basic

/-!
# MessagePack as a client library sees it

`Msgpack.Object` is the object tree an unpacker hands out, and `Msgpack.Codec` collects the
entry points of a MessagePack library: the unpacker, the checked conversions `as<T>` of an
object, and the packing functions, each of which appends bytes to the output buffer. Counts
and lengths are passed to the packer as 32-bit numbers.

`Codec.Lawful` is the documented relation between the two directions. It is compositional:
`Decodes bytes obj` says that the unpacker reads exactly `bytes` off the front of any buffer
and finds `obj`, and the laws say what the packing functions write in these terms — an array
header followed by that many encoded objects decodes to the array of them, and so on.

Doubles are kept as their bit patterns. A packer may write a double with an integral value
as an integer, which is read back as a numerically equal double but not always the same bits
(the sign of a negative zero is lost). The relation between a packed double and the double
that is read back is therefore a parameter of `Lawful`; it is equality for a codec that
writes every double as a float.
-/

namespace Msgpack

/-- A byte string: `std::string`, `std::string_view` and `std::vector<uint8_t>` alike. -/
abbrev ByteString := List UInt8

/-- A double-precision number, by its bit pattern. -/
structure Double where
  bits : UInt64
  deriving DecidableEq, Repr

/-- A decoded object, by its type tag. -/
inductive Object where
  | nil
  | boolean (b : Bool)
  | positiveInteger (n : UInt64)
  | negativeInteger (n : Int64)
  | float32 (bits : UInt32)
  | float64 (d : Double)
  | str (s : ByteString)
  | bin (b : ByteString)
  | array (elems : List Object)
  | map (pairs : List (Object × Object))
  | ext (type : Int8) (data : ByteString)
  deriving Repr

/-- The object of an integer: the sign selects the tag, whatever the type it was packed from. -/
def Object.integer (n : Int64) : Object :=
  if 0 ≤ n then .positiveInteger n.toUInt64 else .negativeInteger n

/-- The entry points of a MessagePack library. Where an entry point may throw, its result is
an `Option` and `none` stands for the exception. -/
structure Codec where
  /-- Read one object off the front of a buffer; the bytes behind it are left over. -/
  parse : ByteString → Option (Object × ByteString)
  asUInt64 : Object → Option UInt64
  asUInt32 : Object → Option UInt32
  asUInt16 : Object → Option UInt16
  asUInt8 : Object → Option UInt8
  asInt64 : Object → Option Int64
  asInt32 : Object → Option Int32
  asDouble : Object → Option Double
  asBool : Object → Option Bool
  asString : Object → Option ByteString
  asStringView : Object → Option ByteString
  packUInt64 : UInt64 → ByteString
  packUInt32 : UInt32 → ByteString
  packUInt16 : UInt16 → ByteString
  packUInt8 : UInt8 → ByteString
  packInt64 : Int64 → ByteString
  packInt32 : Int32 → ByteString
  packDouble : Double → ByteString
  packBool : Bool → ByteString
  packNil : ByteString
  /-- Packing a string throws when its length exceeds 32 bits. -/
  packString : ByteString → Option ByteString
  packArray : UInt32 → ByteString
  packMap : UInt32 → ByteString
  packBin : UInt32 → ByteString
  packBinBody : ByteString → UInt32 → ByteString

namespace Codec

variable (M : Codec)

/-- `msgpack::unpack(data, size)`: the first object of the buffer. -/
def unpack (data : ByteString) : Option Object := (M.parse data).map Prod.fst

/-- The unpacker reads exactly `bytes` off the front of any buffer and finds `obj`. -/
def Decodes (bytes : ByteString) (obj : Object) : Prop :=
  ∀ rest, M.parse (bytes ++ rest) = some (obj, rest)

variable {M}

theorem Decodes.unpack_eq {bytes : ByteString} {obj : Object} (h : M.Decodes bytes obj) :
    M.unpack bytes = some obj := by
  have h' := h []
  rw [List.append_nil] at h'
  rw [unpack, h', Option.map_some]

variable (M)

/-- The documented behaviour of a MessagePack library, where `same d d'` relates a double
that is packed to the double that is read back. -/
structure Lawful (same : Double → Double → Prop) : Prop where
  nil : M.Decodes M.packNil .nil
  bool (b : Bool) : M.Decodes (M.packBool b) (.boolean b)
  uint64 (n : UInt64) : M.Decodes (M.packUInt64 n) (.positiveInteger n)
  uint32 (n : UInt32) : M.Decodes (M.packUInt32 n) (.positiveInteger n.toUInt64)
  uint16 (n : UInt16) : M.Decodes (M.packUInt16 n) (.positiveInteger n.toUInt64)
  uint8 (n : UInt8) : M.Decodes (M.packUInt8 n) (.positiveInteger n.toUInt64)
  int64 (n : Int64) : M.Decodes (M.packInt64 n) (.integer n)
  int32 (n : Int32) : M.Decodes (M.packInt32 n) (.integer n.toInt64)
  double (d : Double) : ∃ obj d', M.Decodes (M.packDouble d) obj ∧ M.asDouble obj = some d' ∧
    same d d'
  string (s : ByteString) : s.length < 2 ^ 32 →
    ∃ bytes, M.packString s = some bytes ∧ M.Decodes bytes (.str s)
  bin (b : ByteString) : b.length < 2 ^ 32 →
    M.Decodes (M.packBin b.length.toUInt32 ++ M.packBinBody b b.length.toUInt32) (.bin b)
  array (items : List (ByteString × Object)) : items.length < 2 ^ 32 →
    (∀ i ∈ items, M.Decodes i.1 i.2) →
    M.Decodes (M.packArray items.length.toUInt32 ++ (items.map Prod.fst).flatten)
      (.array (items.map Prod.snd))
  map (items : List ((ByteString × Object) × (ByteString × Object))) : items.length < 2 ^ 32 →
    (∀ i ∈ items, M.Decodes i.1.1 i.1.2 ∧ M.Decodes i.2.1 i.2.2) →
    M.Decodes (M.packMap items.length.toUInt32 ++ (items.map fun i => i.1.1 ++ i.2.1).flatten)
      (.map (items.map fun i => (i.1.2, i.2.2)))
  asUInt64 (n : UInt64) : M.asUInt64 (.positiveInteger n) = some n
  asUInt32 (n : UInt32) : M.asUInt32 (.positiveInteger n.toUInt64) = some n
  asUInt16 (n : UInt16) : M.asUInt16 (.positiveInteger n.toUInt64) = some n
  asUInt8 (n : UInt8) : M.asUInt8 (.positiveInteger n.toUInt64) = some n
  asInt64 (n : Int64) : M.asInt64 (.integer n) = some n
  asInt32 (n : Int32) : M.asInt32 (.integer n.toInt64) = some n
  asBool (b : Bool) : M.asBool (.boolean b) = some b
  asString (s : ByteString) : M.asString (.str s) = some s
  asStringView (s : ByteString) : M.asStringView (.str s) = some s

end Codec

end Msgpack
