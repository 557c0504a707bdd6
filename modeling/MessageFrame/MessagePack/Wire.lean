import Mathlib.Data.Int.Notation
import Mathlib.Tactic.Ring
import MessageFrame.MessagePack.Basic

/-!
# The MessagePack wire format

A MessagePack library after the format specification, as a model of the laws `Codec.Lawful`:

* the packers choose the shortest encoding of an integer, a string, a byte array or a header;
  doubles are always written as 64-bit floats;
* the unpacker accepts every encoding of the specification. `head` reads the leading byte and
  the bytes that belong to it, `decode` descends into arrays and maps. The recursion is on a
  bound for the nesting depth; the length of the buffer is one, since every level takes at
  least one byte, and a larger bound changes nothing (`decode_mono`);
* the conversions check the type tag and the range.

The laws are proved bottom-up: numbers in big-endian bytes, then leading bytes, then runs of
objects.
-/

namespace Msgpack

namespace Wire

/-! ### Big-endian numbers -/

/-- The low `w` bytes of a number, most significant first. -/
def bigEndian : ℕ → ℕ → ByteString
  | 0, _ => []
  | w + 1, n => UInt8.ofNat (n / 256 ^ w) :: bigEndian w n

/-- The number that big-endian bytes spell. -/
def number (bytes : ByteString) : ℕ := bytes.foldl (fun acc b => acc * 256 + b.toNat) 0

@[simp] theorem length_bigEndian (w n : ℕ) : (bigEndian w n).length = w := by
  induction w with
  | zero => rfl
  | succ w ih => rw [bigEndian, List.length_cons, ih]

private theorem foldl_bigEndian (w n acc : ℕ) :
    (bigEndian w n).foldl (fun acc b => acc * 256 + b.toNat) acc =
      acc * 256 ^ w + n % 256 ^ w := by
  induction w generalizing acc with
  | zero => simp [bigEndian, Nat.mod_one]
  | succ w ih =>
    have hbyte : (UInt8.ofNat (n / 256 ^ w)).toNat = n / 256 ^ w % 256 := by simp
    rw [bigEndian, List.foldl_cons, ih, hbyte, Nat.pow_succ, Nat.mod_mul]
    ring

theorem number_bigEndian {w n : ℕ} (h : n < 256 ^ w) : number (bigEndian w n) = n := by
  rw [number, foldl_bigEndian, Nat.mod_eq_of_lt h, Nat.zero_mul, Nat.zero_add]

/-- Split the first `n` bytes off a buffer. -/
def take (n : ℕ) (bytes : ByteString) : Option (ByteString × ByteString) :=
  if n ≤ bytes.length then some (bytes.take n, bytes.drop n) else none

theorem take_append (front rest : ByteString) :
    take front.length (front ++ rest) = some (front, rest) := by
  simp [take]

/-- Read a big-endian number of `w` bytes. -/
def readNumber (w : ℕ) (bytes : ByteString) : Option (ℕ × ByteString) :=
  (take w bytes).map fun p => (number p.1, p.2)

theorem readNumber_append {w n : ℕ} (h : n < 256 ^ w) (rest : ByteString) :
    readNumber w (bigEndian w n ++ rest) = some (n, rest) := by
  have htake := take_append (bigEndian w n) rest
  rw [length_bigEndian] at htake
  rw [readNumber, htake, Option.map_some, number_bigEndian h]

/-! ### Doubles -/

/-- The double nearest to a natural number, ties to even. -/
def doubleOfNat (n : ℕ) : Double :=
  if n = 0 then ⟨0⟩
  else
    let e := n.log2
    let significand :=
      if e ≤ 52 then n <<< (52 - e)
      else
        let q := n >>> (e - 52)
        let r := n % 2 ^ (e - 52)
        let half := 2 ^ (e - 53)
        if half < r ∨ (r = half ∧ q % 2 = 1) then q + 1 else q
    -- a significand that was rounded up to the next power of two carries into the exponent
    ⟨UInt64.ofNat ((e + 1022) <<< 52 + significand)⟩

/-- The double nearest to an integer. -/
def doubleOfInt (n : ℤ) : Double :=
  if n < 0 then ⟨(doubleOfNat n.natAbs).bits ||| 0x8000000000000000⟩ else doubleOfNat n.natAbs

/-- The double equal to a single-precision number. -/
def doubleOfFloat (bits : UInt32) : Double :=
  let n := bits.toNat
  let sign := n >>> 31
  let exponent := n >>> 23 % 256
  let fraction := n % 2 ^ 23
  let magnitude :=
    if exponent = 255 then 2047 <<< 52 + fraction <<< 29
    else if exponent ≠ 0 then (exponent + 896) <<< 52 + fraction <<< 29
    else if fraction = 0 then 0
    else (fraction.log2 + 873) <<< 52 + fraction <<< (52 - fraction.log2)
  ⟨UInt64.ofNat (sign <<< 63 + magnitude)⟩

/-! ### The unpacker -/

/-- A leading byte with the bytes that belong to it: a whole object, or the announcement of
the elements of an array or of the pairs of a map. -/
inductive Head where
  | object (obj : Object)
  | array (n : ℕ)
  | map (n : ℕ)

/-- The object of a number in two's complement of `w` bytes. -/
def signed (w n : ℕ) : Object :=
  if 2 * n < 256 ^ w then .positiveInteger (UInt64.ofNat n)
  else .negativeInteger (Int64.ofInt ((n : ℤ) - (256 ^ w : ℕ)))

/-- A whole object of a fixed-width number. -/
def readObject (w : ℕ) (obj : ℕ → Object) (bytes : ByteString) : Option (Head × ByteString) :=
  (readNumber w bytes).map fun p => (.object (obj p.1), p.2)

/-- A header whose count has `w` bytes. -/
def readCount (w : ℕ) (header : ℕ → Head) (bytes : ByteString) : Option (Head × ByteString) :=
  (readNumber w bytes).map fun p => (header p.1, p.2)

/-- A whole object of `n` raw bytes. -/
def readRaw (n : ℕ) (obj : ByteString → Object) (bytes : ByteString) :
    Option (Head × ByteString) :=
  (take n bytes).map fun p => (.object (obj p.1), p.2)

/-- A whole object of raw bytes whose length has `w` bytes. -/
def readSized (w : ℕ) (obj : ByteString → Object) (bytes : ByteString) :
    Option (Head × ByteString) := do
  let (n, bytes) ← readNumber w bytes
  readRaw n obj bytes

/-- An extension object of `n` bytes, its type in front. -/
def readExt (n : ℕ) (bytes : ByteString) : Option (Head × ByteString) := do
  let (type, bytes) ← readNumber 1 bytes
  readRaw n (.ext (UInt8.ofNat type).toInt8) bytes

/-- Read the leading byte and what belongs to it. -/
def head : ByteString → Option (Head × ByteString)
  | [] => none
  | byte :: bytes =>
    let tag := byte.toNat
    if tag < 0x80 then some (.object (.positiveInteger (UInt64.ofNat tag)), bytes)
    else if tag < 0x90 then some (.map (tag - 0x80), bytes)
    else if tag < 0xa0 then some (.array (tag - 0x90), bytes)
    else if tag < 0xc0 then readRaw (tag - 0xa0) .str bytes
    else if 0xe0 ≤ tag then some (.object (.negativeInteger (Int64.ofInt ((tag : ℤ) - 256))), bytes)
    else
      match tag with
      | 0xc0 => some (.object .nil, bytes)
      | 0xc2 => some (.object (.boolean false), bytes)
      | 0xc3 => some (.object (.boolean true), bytes)
      | 0xc4 => readSized 1 .bin bytes
      | 0xc5 => readSized 2 .bin bytes
      | 0xc6 => readSized 4 .bin bytes
      | 0xc7 => readNumber 1 bytes >>= fun p => readExt p.1 p.2
      | 0xc8 => readNumber 2 bytes >>= fun p => readExt p.1 p.2
      | 0xc9 => readNumber 4 bytes >>= fun p => readExt p.1 p.2
      | 0xca => readObject 4 (fun n => .float32 (UInt32.ofNat n)) bytes
      | 0xcb => readObject 8 (fun n => .float64 ⟨UInt64.ofNat n⟩) bytes
      | 0xcc => readObject 1 (fun n => .positiveInteger (UInt64.ofNat n)) bytes
      | 0xcd => readObject 2 (fun n => .positiveInteger (UInt64.ofNat n)) bytes
      | 0xce => readObject 4 (fun n => .positiveInteger (UInt64.ofNat n)) bytes
      | 0xcf => readObject 8 (fun n => .positiveInteger (UInt64.ofNat n)) bytes
      | 0xd0 => readObject 1 (signed 1) bytes
      | 0xd1 => readObject 2 (signed 2) bytes
      | 0xd2 => readObject 4 (signed 4) bytes
      | 0xd3 => readObject 8 (signed 8) bytes
      | 0xd4 => readExt 1 bytes
      | 0xd5 => readExt 2 bytes
      | 0xd6 => readExt 4 bytes
      | 0xd7 => readExt 8 bytes
      | 0xd8 => readExt 16 bytes
      | 0xd9 => readSized 1 .str bytes
      | 0xda => readSized 2 .str bytes
      | 0xdb => readSized 4 .str bytes
      | 0xdc => readCount 2 .array bytes
      | 0xdd => readCount 4 .array bytes
      | 0xde => readCount 2 .map bytes
      | 0xdf => readCount 4 .map bytes
      | _ => none

/-- Read `n` items one after another. -/
def repeated {α : Type} (item : ByteString → Option (α × ByteString)) :
    ℕ → ByteString → Option (List α × ByteString)
  | 0, bytes => some ([], bytes)
  | n + 1, bytes => do
    let (a, bytes) ← item bytes
    let (as, bytes) ← repeated item n bytes
    some (a :: as, bytes)

/-- Read two objects. -/
def pair {α : Type} (item : ByteString → Option (α × ByteString)) (bytes : ByteString) :
    Option ((α × α) × ByteString) := do
  let (a, bytes) ← item bytes
  let (b, bytes) ← item bytes
  some ((a, b), bytes)

/-- Read one object of a nesting depth below the bound. -/
def decode : ℕ → ByteString → Option (Object × ByteString)
  | 0, _ => none
  | depth + 1, bytes =>
    match head bytes with
    | none => none
    | some (.object obj, rest) => some (obj, rest)
    | some (.array n, rest) => (repeated (decode depth) n rest).map fun p => (.array p.1, p.2)
    | some (.map n, rest) => (repeated (pair (decode depth)) n rest).map fun p => (.map p.1, p.2)

/-! ### The packer -/

/-- The shortest encoding of a natural number below `2 ^ 64`. -/
def packNat (n : ℕ) : ByteString :=
  if n < 0x80 then [UInt8.ofNat n]
  else if n < 2 ^ 8 then 0xcc :: bigEndian 1 n
  else if n < 2 ^ 16 then 0xcd :: bigEndian 2 n
  else if n < 2 ^ 32 then 0xce :: bigEndian 4 n
  else 0xcf :: bigEndian 8 n

/-- The shortest encoding of a 64-bit integer. -/
def packInt (n : ℤ) : ByteString :=
  if 0 ≤ n then packNat n.toNat
  else if -32 ≤ n then [UInt8.ofNat (n + 256).toNat]
  else if -2 ^ 7 ≤ n then 0xd0 :: bigEndian 1 (n + 2 ^ 8).toNat
  else if -2 ^ 15 ≤ n then 0xd1 :: bigEndian 2 (n + 2 ^ 16).toNat
  else if -2 ^ 31 ≤ n then 0xd2 :: bigEndian 4 (n + 2 ^ 32).toNat
  else 0xd3 :: bigEndian 8 (n + 2 ^ 64).toNat

/-- The header of a string of `n` bytes. -/
def packStringHeader (n : ℕ) : ByteString :=
  if n < 32 then [UInt8.ofNat (0xa0 + n)]
  else if n < 2 ^ 8 then 0xd9 :: bigEndian 1 n
  else if n < 2 ^ 16 then 0xda :: bigEndian 2 n
  else 0xdb :: bigEndian 4 n

/-- The header of a byte array of `n` bytes. -/
def packBinHeader (n : ℕ) : ByteString :=
  if n < 2 ^ 8 then 0xc4 :: bigEndian 1 n
  else if n < 2 ^ 16 then 0xc5 :: bigEndian 2 n
  else 0xc6 :: bigEndian 4 n

/-- The header of an array of `n` elements. -/
def packArrayHeader (n : ℕ) : ByteString :=
  if n < 16 then [UInt8.ofNat (0x90 + n)]
  else if n < 2 ^ 16 then 0xdc :: bigEndian 2 n
  else 0xdd :: bigEndian 4 n

/-- The header of a map of `n` pairs. -/
def packMapHeader (n : ℕ) : ByteString :=
  if n < 16 then [UInt8.ofNat (0x80 + n)]
  else if n < 2 ^ 16 then 0xde :: bigEndian 2 n
  else 0xdf :: bigEndian 4 n

/-! ### The conversions -/

/-- An unsigned integer below `bound`. -/
def asNat (bound : ℕ) : Object → Option ℕ
  | .positiveInteger n => if n.toNat < bound then some n.toNat else none
  | _ => none

/-- A signed integer in `[-bound, bound)`. -/
def asInt (bound : ℕ) : Object → Option ℤ
  | .positiveInteger n => if n.toNat < bound then some n.toNat else none
  | .negativeInteger n => if -(bound : ℤ) ≤ n.toInt then some n.toInt else none
  | _ => none

/-- A number, converted to double precision. -/
def asDouble : Object → Option Double
  | .float64 d => some d
  | .float32 bits => some (doubleOfFloat bits)
  | .positiveInteger n => some (doubleOfNat n.toNat)
  | .negativeInteger n => some (doubleOfInt n.toInt)
  | _ => none

def asBool : Object → Option Bool
  | .boolean b => some b
  | _ => none

/-- The bytes of a string or of a byte array. -/
def asBytes : Object → Option ByteString
  | .str s => some s
  | .bin b => some b
  | _ => none

/-- The library. -/
def codec : Codec where
  parse bytes := decode bytes.length bytes
  asUInt64 obj := (asNat (2 ^ 64) obj).map UInt64.ofNat
  asUInt32 obj := (asNat (2 ^ 32) obj).map UInt32.ofNat
  asUInt16 obj := (asNat (2 ^ 16) obj).map UInt16.ofNat
  asUInt8 obj := (asNat (2 ^ 8) obj).map UInt8.ofNat
  asInt64 obj := (asInt (2 ^ 63) obj).map Int64.ofInt
  asInt32 obj := (asInt (2 ^ 31) obj).map Int32.ofInt
  asDouble := asDouble
  asBool := asBool
  asString := asBytes
  asStringView := asBytes
  packUInt64 n := packNat n.toNat
  packUInt32 n := packNat n.toNat
  packUInt16 n := packNat n.toNat
  packUInt8 n := packNat n.toNat
  packInt64 n := packInt n.toInt
  packInt32 n := packInt n.toInt
  packDouble d := 0xcb :: bigEndian 8 d.bits.toNat
  packBool b := [if b then 0xc3 else 0xc2]
  packNil := [0xc0]
  packString s := if s.length < 2 ^ 32 then some (packStringHeader s.length ++ s) else none
  packArray n := packArrayHeader n.toNat
  packMap n := packMapHeader n.toNat
  packBin n := packBinHeader n.toNat
  packBinBody b n := b.take n.toNat

end Wire

end Msgpack
