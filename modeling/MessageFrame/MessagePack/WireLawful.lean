import Mathlib.Tactic.Ring
import MessageFrame.MessagePack.Wire

/-!
# The wire format satisfies the laws

`lawful` states that the library `Wire.codec` is lawful with equality of doubles. The laws of
single objects come from what `head` finds behind a leading byte (`Heads`), those of arrays
and maps from runs of objects that are each read with a bound on the length of the buffer
(`ReadsUpTo`), which is what the bound on the nesting depth in `decode` asks for.
-/

namespace Msgpack

namespace Wire

/-! ### Leading bytes -/

/-- `head` reads exactly `bytes` off the front of any buffer and finds `h`. -/
def Heads (bytes : ByteString) (h : Head) : Prop := ∀ rest, head (bytes ++ rest) = some (h, rest)

theorem Heads.length_pos {bytes : ByteString} {h : Head} (hh : Heads bytes h) :
    0 < bytes.length := by
  cases bytes with
  | nil => exact absurd (hh []) (by simp [head])
  | cons b bs => exact Nat.succ_pos _

theorem readObject_append {w n : ℕ} (h : n < 256 ^ w) (obj : ℕ → Object) (rest : ByteString) :
    readObject w obj (bigEndian w n ++ rest) = some (.object (obj n), rest) := by
  rw [readObject, readNumber_append h, Option.map_some]

theorem readCount_append {w n : ℕ} (h : n < 256 ^ w) (header : ℕ → Head) (rest : ByteString) :
    readCount w header (bigEndian w n ++ rest) = some (header n, rest) := by
  rw [readCount, readNumber_append h, Option.map_some]

theorem readRaw_append (s : ByteString) (obj : ByteString → Object) (rest : ByteString) :
    readRaw s.length obj (s ++ rest) = some (.object (obj s), rest) := by
  rw [readRaw, take_append, Option.map_some]

theorem readSized_append {w : ℕ} {s : ByteString} (h : s.length < 256 ^ w)
    (obj : ByteString → Object) (rest : ByteString) :
    readSized w obj (bigEndian w s.length ++ (s ++ rest)) = some (.object (obj s), rest) := by
  rw [readSized, readNumber_append h]
  exact readRaw_append s obj rest

/-- A number in the leading byte. -/
private theorem toNat_ofNat {n : ℕ} (h : n < 256) : (UInt8.ofNat n).toNat = n := by
  rw [UInt8.toNat_ofNat', Nat.mod_eq_of_lt h]

theorem heads_packNat {n : ℕ} (h : n < 2 ^ 64) :
    Heads (packNat n) (.object (.positiveInteger (UInt64.ofNat n))) := by
  intro rest
  rw [packNat]
  split_ifs with h₀ h₁ h₂ h₃
  · simp [head, toNat_ofNat (n := n) (by omega), h₀]
  · exact readObject_append (w := 1) h₁ (fun n => .positiveInteger (UInt64.ofNat n)) rest
  · exact readObject_append (w := 2) h₂ (fun n => .positiveInteger (UInt64.ofNat n)) rest
  · exact readObject_append (w := 4) h₃ (fun n => .positiveInteger (UInt64.ofNat n)) rest
  · exact readObject_append (w := 8) h (fun n => .positiveInteger (UInt64.ofNat n)) rest

/-- Two's complement of a negative number. -/
private theorem signed_neg {w : ℕ} {n : ℤ} (hn : n < 0) (hw : -(256 ^ w : ℕ) ≤ 2 * n) :
    signed w (n + (256 ^ w : ℕ)).toNat = .negativeInteger (Int64.ofInt n) := by
  rw [signed, if_neg (by omega), Int.toNat_of_nonneg (by omega), Int.add_sub_cancel]

theorem heads_packInt {n : ℤ} (hneg : n < 0) (h : -2 ^ 63 ≤ n) :
    Heads (packInt n) (.object (.negativeInteger (Int64.ofInt n))) := by
  intro rest
  rw [packInt, if_neg (by omega)]
  split_ifs with h₀ h₁ h₂ h₃
  · -- a negative fixint: the number itself is the leading byte
    have hbyte : (UInt8.ofNat (n + 256).toNat).toNat = (n + 256).toNat := toNat_ofNat (by omega)
    have hback : ((n + 256).toNat : ℤ) - 256 = n := by omega
    have hlow : ¬(n + 256).toNat < 0x80 ∧ ¬(n + 256).toNat < 0x90 ∧ ¬(n + 256).toNat < 0xa0 ∧
        ¬(n + 256).toNat < 0xc0 ∧ 0xe0 ≤ (n + 256).toNat := by omega
    obtain ⟨l₀, l₁, l₂, l₃, l₄⟩ := hlow
    simp only [List.cons_append, List.nil_append, head, hbyte, if_neg l₀, if_neg l₁, if_neg l₂,
      if_neg l₃, if_pos l₄, hback]
  · rw [← signed_neg (w := 1) hneg (by omega)]
    exact readObject_append (w := 1) (by omega) (signed 1) rest
  · rw [← signed_neg (w := 2) hneg (by omega)]
    exact readObject_append (w := 2) (by omega) (signed 2) rest
  · rw [← signed_neg (w := 4) hneg (by omega)]
    exact readObject_append (w := 4) (by omega) (signed 4) rest
  · rw [← signed_neg (w := 8) hneg (by omega)]
    exact readObject_append (w := 8) (by omega) (signed 8) rest

theorem heads_string {s : ByteString} (h : s.length < 2 ^ 32) :
    Heads (packStringHeader s.length ++ s) (.object (.str s)) := by
  intro rest
  rw [packStringHeader, List.append_assoc]
  split_ifs with h₀ h₁ h₂
  · -- a fixstr: the length is in the leading byte
    have hbyte := toNat_ofNat (n := 0xa0 + s.length) (by omega)
    have hlow : ¬0xa0 + s.length < 0x80 ∧ ¬0xa0 + s.length < 0x90 ∧ ¬0xa0 + s.length < 0xa0 ∧
        0xa0 + s.length < 0xc0 := by omega
    obtain ⟨l₀, l₁, l₂, l₃⟩ := hlow
    simp only [List.cons_append, List.nil_append, head, hbyte, if_neg l₀, if_neg l₁, if_neg l₂,
      if_pos l₃, Nat.add_sub_cancel_left]
    exact readRaw_append s .str rest
  · exact readSized_append (w := 1) h₁ .str rest
  · exact readSized_append (w := 2) h₂ .str rest
  · exact readSized_append (w := 4) h .str rest

theorem heads_bin {b : ByteString} (h : b.length < 2 ^ 32) :
    Heads (packBinHeader b.length ++ b) (.object (.bin b)) := by
  intro rest
  rw [packBinHeader, List.append_assoc]
  split_ifs with h₁ h₂
  · exact readSized_append (w := 1) h₁ .bin rest
  · exact readSized_append (w := 2) h₂ .bin rest
  · exact readSized_append (w := 4) h .bin rest

theorem heads_array {n : ℕ} (h : n < 2 ^ 32) : Heads (packArrayHeader n) (.array n) := by
  intro rest
  rw [packArrayHeader]
  split_ifs with h₀ h₁
  · -- a fixarray
    have hbyte := toNat_ofNat (n := 0x90 + n) (by omega)
    have hlow : ¬0x90 + n < 0x80 ∧ ¬0x90 + n < 0x90 ∧ 0x90 + n < 0xa0 := by omega
    obtain ⟨l₀, l₁, l₂⟩ := hlow
    simp only [List.cons_append, List.nil_append, head, hbyte, if_neg l₀, if_neg l₁, if_pos l₂,
      Nat.add_sub_cancel_left]
  · exact readCount_append (w := 2) h₁ .array rest
  · exact readCount_append (w := 4) h .array rest

theorem heads_map {n : ℕ} (h : n < 2 ^ 32) : Heads (packMapHeader n) (.map n) := by
  intro rest
  rw [packMapHeader]
  split_ifs with h₀ h₁
  · -- a fixmap
    have hbyte := toNat_ofNat (n := 0x80 + n) (by omega)
    have hlow : ¬0x80 + n < 0x80 ∧ 0x80 + n < 0x90 := by omega
    obtain ⟨l₀, l₁⟩ := hlow
    simp only [List.cons_append, List.nil_append, head, hbyte, if_neg l₀, if_pos l₁,
      Nat.add_sub_cancel_left]
  · exact readCount_append (w := 2) h₁ .map rest
  · exact readCount_append (w := 4) h .map rest

/-! ### Runs of objects -/

section Runs

variable {α β : Type}

/-- The reader finds `a` in exactly `bytes`, in front of any buffer of at most `N` bytes. -/
def ReadsUpTo (N : ℕ) (item : ByteString → Option (α × ByteString)) (bytes : ByteString)
    (a : α) : Prop :=
  ∀ rest, (bytes ++ rest).length ≤ N → item (bytes ++ rest) = some (a, rest)

theorem ReadsUpTo.pair {N : ℕ} {item : ByteString → Option (α × ByteString)}
    {bytes bytes' : ByteString} {a a' : α} (h : ReadsUpTo N item bytes a)
    (h' : ReadsUpTo N item bytes' a') : ReadsUpTo N (Wire.pair item) (bytes ++ bytes') (a, a') := by
  intro rest hlen
  rw [List.append_assoc] at hlen ⊢
  have hlen' : (bytes' ++ rest).length ≤ N := by
    rw [List.length_append] at hlen
    omega
  simp [Wire.pair, h _ hlen, h' _ hlen']

theorem ReadsUpTo.repeated {N : ℕ} {item : ByteString → Option (α × ByteString)}
    {items : List β} {bytes : β → ByteString} {a : β → α}
    (h : ∀ i ∈ items, ReadsUpTo N item (bytes i) (a i)) :
    ReadsUpTo N (Wire.repeated item items.length) (items.map bytes).flatten (items.map a) := by
  induction items with
  | nil => exact fun rest _ => rfl
  | cons i items ih =>
    intro rest hlen
    have ih := ih fun j hj => h j (List.mem_cons_of_mem i hj)
    rw [List.map_cons, List.flatten_cons, List.append_assoc] at hlen ⊢
    -- what is left after the first element is shorter still
    have hlen' : ((items.map bytes).flatten ++ rest).length ≤ N := by
      rw [List.length_append] at hlen
      omega
    simp [Wire.repeated, h i List.mem_cons_self _ hlen, ih _ hlen']

/-- A reader that finds at least as much reads the same runs. -/
theorem repeated_mono {item item' : ByteString → Option (α × ByteString)}
    (h : ∀ bytes r, item bytes = some r → item' bytes = some r) (n : ℕ) {bytes : ByteString}
    {r : List α × ByteString} (hr : Wire.repeated item n bytes = some r) :
    Wire.repeated item' n bytes = some r := by
  induction n generalizing bytes r with
  | zero => exact hr
  | succ n ih =>
    simp only [Wire.repeated, Option.bind_eq_bind, Option.bind_eq_some_iff, Prod.exists] at hr ⊢
    obtain ⟨a, bytes', ha, as, bytes'', has, hr⟩ := hr
    exact ⟨a, bytes', h _ _ ha, as, bytes'', ih has, hr⟩

theorem pair_mono {item item' : ByteString → Option (α × ByteString)}
    (h : ∀ bytes r, item bytes = some r → item' bytes = some r) {bytes : ByteString}
    {r : (α × α) × ByteString} (hr : Wire.pair item bytes = some r) :
    Wire.pair item' bytes = some r := by
  simp only [Wire.pair, Option.bind_eq_bind, Option.bind_eq_some_iff, Prod.exists] at hr ⊢
  obtain ⟨a, bytes', ha, b, bytes'', hb, hr⟩ := hr
  exact ⟨a, bytes', h _ _ ha, b, bytes'', h _ _ hb, hr⟩

end Runs

/-- A larger bound on the nesting depth changes nothing. -/
theorem decode_mono {d d' : ℕ} (hd : d ≤ d') {bytes : ByteString} {r : Object × ByteString}
    (h : decode d bytes = some r) : decode d' bytes = some r := by
  induction d generalizing d' bytes r with
  | zero => cases h
  | succ d ih =>
    obtain ⟨d', rfl⟩ : ∃ e, d' = e + 1 := ⟨d' - 1, by omega⟩
    -- the elements of an array or a map are read one level deeper
    have hstep : ∀ bytes r, decode d bytes = some r → decode d' bytes = some r :=
      fun _ _ => ih (by omega)
    rw [decode] at h ⊢
    cases hhead : head bytes with
    | none => rw [hhead] at h; cases h
    | some p =>
      obtain ⟨hd, rest⟩ := p
      rw [hhead] at h
      cases hd with
      | object obj => exact h
      | array n =>
        simp only [Option.map_eq_some_iff] at h ⊢
        obtain ⟨p, hp, hr⟩ := h
        exact ⟨p, repeated_mono hstep n hp, hr⟩
      | map n =>
        simp only [Option.map_eq_some_iff] at h ⊢
        obtain ⟨p, hp, hr⟩ := h
        exact ⟨p, repeated_mono (fun _ _ => pair_mono hstep) n hp, hr⟩

/-- A decoded object is read under any sufficient bound. -/
theorem readsUpTo_of_decodes {bytes : ByteString} {obj : Object} (h : codec.Decodes bytes obj)
    (N : ℕ) : ReadsUpTo N (decode N) bytes obj :=
  fun rest hlen => decode_mono hlen (h rest)

/-! ### Objects -/

theorem decodes_object {bytes : ByteString} {obj : Object} (h : Heads bytes (.object obj)) :
    codec.Decodes bytes obj := by
  intro rest
  have hpos := h.length_pos
  obtain ⟨k, hk⟩ : ∃ k, (bytes ++ rest).length = k + 1 :=
    Nat.exists_eq_add_one_of_ne_zero (by rw [List.length_append]; omega)
  show decode (bytes ++ rest).length (bytes ++ rest) = some (obj, rest)
  rw [hk, decode, h rest]

theorem decodes_array {header : ByteString} {items : List (ByteString × Object)}
    (hh : Heads header (.array items.length)) (hi : ∀ i ∈ items, codec.Decodes i.1 i.2) :
    codec.Decodes (header ++ (items.map Prod.fst).flatten) (.array (items.map Prod.snd)) := by
  intro rest
  have hpos := hh.length_pos
  rw [List.append_assoc]
  -- the header takes at least one byte, so the bound for the elements still covers them
  obtain ⟨k, hk⟩ : ∃ k, (header ++ ((items.map Prod.fst).flatten ++ rest)).length = k + 1 :=
    Nat.exists_eq_add_one_of_ne_zero (by rw [List.length_append]; omega)
  have hrun : ReadsUpTo k (repeated (decode k) items.length) (items.map Prod.fst).flatten
      (items.map Prod.snd) := ReadsUpTo.repeated fun i hmem => readsUpTo_of_decodes (hi i hmem) k
  show decode (header ++ ((items.map Prod.fst).flatten ++ rest)).length _ = _
  rw [hk, decode, hh]
  simp only
  rw [hrun rest (by rw [List.length_append] at hk; omega), Option.map_some]

theorem decodes_map {header : ByteString}
    {items : List ((ByteString × Object) × (ByteString × Object))}
    (hh : Heads header (.map items.length))
    (hi : ∀ i ∈ items, codec.Decodes i.1.1 i.1.2 ∧ codec.Decodes i.2.1 i.2.2) :
    codec.Decodes (header ++ (items.map fun i => i.1.1 ++ i.2.1).flatten)
      (.map (items.map fun i => (i.1.2, i.2.2))) := by
  intro rest
  have hpos := hh.length_pos
  rw [List.append_assoc]
  obtain ⟨k, hk⟩ : ∃ k,
      (header ++ ((items.map fun i => i.1.1 ++ i.2.1).flatten ++ rest)).length = k + 1 :=
    Nat.exists_eq_add_one_of_ne_zero (by rw [List.length_append]; omega)
  have hrun : ReadsUpTo k (repeated (pair (decode k)) items.length)
      (items.map fun i => i.1.1 ++ i.2.1).flatten (items.map fun i => (i.1.2, i.2.2)) :=
    ReadsUpTo.repeated fun i hmem =>
      (readsUpTo_of_decodes (hi i hmem).1 k).pair (readsUpTo_of_decodes (hi i hmem).2 k)
  show decode (header ++ ((items.map fun i => i.1.1 ++ i.2.1).flatten ++ rest)).length _ = _
  rw [hk, decode, hh]
  simp only
  rw [hrun rest (by rw [List.length_append] at hk; omega), Option.map_some]

/-! ### The laws -/

theorem decodes_nat {n : ℕ} (h : n < 2 ^ 64) :
    codec.Decodes (packNat n) (.positiveInteger (UInt64.ofNat n)) :=
  decodes_object (heads_packNat h)

theorem decodes_uint (n : UInt64) : codec.Decodes (packNat n.toNat) (.positiveInteger n) := by
  have h := decodes_nat n.toNat_lt
  rwa [UInt64.ofNat_toNat] at h

/-- A non-negative integer as an unsigned one. -/
private theorem toUInt64_eq {n : Int64} (h : 0 ≤ n) : n.toUInt64 = UInt64.ofNat n.toInt.toNat := by
  have hnat : n.toUInt64.toNat = n.toInt.toNat := Int64.toNat_toUInt64_of_le h
  rw [← hnat, UInt64.ofNat_toNat]

theorem decodes_integer (n : Int64) : codec.Decodes (packInt n.toInt) (.integer n) := by
  rw [Object.integer]
  split_ifs with h
  · have hpos : 0 ≤ n.toInt := by simpa [Int64.le_iff_toInt_le] using h
    have hlt := n.toInt_lt
    rw [packInt, if_pos hpos, toUInt64_eq h]
    exact decodes_nat (by omega)
  · have hneg : n.toInt < 0 := by simpa [Int64.le_iff_toInt_le] using h
    have hheads := heads_packInt hneg n.le_toInt
    rw [Int64.ofInt_toInt] at hheads
    exact decodes_object hheads

theorem asInt_integer {bound : ℕ} {n : Int64} (hlow : -(bound : ℤ) ≤ n.toInt)
    (hhigh : n.toInt < bound) : asInt bound (.integer n) = some n.toInt := by
  rw [Object.integer]
  split_ifs with h
  · have hpos : 0 ≤ n.toInt := by simpa [Int64.le_iff_toInt_le] using h
    have hnat : n.toUInt64.toNat = n.toInt.toNat := Int64.toNat_toUInt64_of_le h
    rw [asInt, hnat, if_pos (by omega), Int.toNat_of_nonneg hpos]
  · rw [asInt, if_pos hlow]

theorem asNat_positiveInteger {bound : ℕ} {n : UInt64} (h : n.toNat < bound) :
    asNat bound (.positiveInteger n) = some n.toNat := if_pos h

private theorem toNat_toUInt32 {n : ℕ} (h : n < 2 ^ 32) : n.toUInt32.toNat = n :=
  UInt32.toNat_ofNat_of_lt' h

/-- **The wire format is lawful**, with every double read back bit by bit. -/
theorem lawful : codec.Lawful Eq where
  nil := decodes_object fun rest => rfl
  bool b := decodes_object fun rest => by cases b <;> rfl
  uint64 n := decodes_uint n
  uint32 n := by
    have h := decodes_uint n.toUInt64
    rwa [UInt32.toNat_toUInt64] at h
  uint16 n := by
    have h := decodes_uint n.toUInt64
    rwa [UInt16.toNat_toUInt64] at h
  uint8 n := by
    have h := decodes_uint n.toUInt64
    rwa [UInt8.toNat_toUInt64] at h
  int64 n := decodes_integer n
  int32 n := by
    have h := decodes_integer n.toInt64
    rwa [Int32.toInt_toInt64] at h
  double d := by
    refine ⟨.float64 d, d, decodes_object fun rest => ?_, rfl, rfl⟩
    have h := readObject_append (w := 8) d.bits.toNat_lt (fun n => .float64 ⟨UInt64.ofNat n⟩) rest
    rw [UInt64.ofNat_toNat] at h
    exact h
  string s h := ⟨_, if_pos h, decodes_object (heads_string h)⟩
  bin b h := by
    have hb := decodes_object (heads_bin h)
    simpa [codec, toNat_toUInt32 h] using hb
  array items h hi := by
    refine decodes_array ?_ hi
    show Heads (packArrayHeader items.length.toUInt32.toNat) _
    rw [toNat_toUInt32 h]
    exact heads_array h
  map items h hi := by
    refine decodes_map ?_ hi
    show Heads (packMapHeader items.length.toUInt32.toNat) _
    rw [toNat_toUInt32 h]
    exact heads_map h
  asUInt64 n := by
    show (asNat (2 ^ 64) _).map _ = _
    rw [asNat_positiveInteger n.toNat_lt, Option.map_some, UInt64.ofNat_toNat]
  asUInt32 n := by
    show (asNat (2 ^ 32) _).map _ = _
    rw [asNat_positiveInteger (by rw [UInt32.toNat_toUInt64]; exact n.toNat_lt), Option.map_some,
      UInt32.toNat_toUInt64, UInt32.ofNat_toNat]
  asUInt16 n := by
    show (asNat (2 ^ 16) _).map _ = _
    rw [asNat_positiveInteger (by rw [UInt16.toNat_toUInt64]; exact n.toNat_lt), Option.map_some,
      UInt16.toNat_toUInt64, UInt16.ofNat_toNat]
  asUInt8 n := by
    show (asNat (2 ^ 8) _).map _ = _
    rw [asNat_positiveInteger (by rw [UInt8.toNat_toUInt64]; exact n.toNat_lt), Option.map_some,
      UInt8.toNat_toUInt64, UInt8.ofNat_toNat]
  asInt64 n := by
    show (asInt (2 ^ 63) _).map _ = _
    rw [asInt_integer n.le_toInt n.toInt_lt, Option.map_some, Int64.ofInt_toInt]
  asInt32 n := by
    show (asInt (2 ^ 31) _).map _ = _
    rw [asInt_integer (by rw [Int32.toInt_toInt64]; exact n.le_toInt)
      (by rw [Int32.toInt_toInt64]; exact n.toInt_lt), Option.map_some, Int32.toInt_toInt64,
      Int32.ofInt_toInt]
  asBool b := rfl
  asString s := rfl
  asStringView s := rfl

end Wire

end Msgpack
